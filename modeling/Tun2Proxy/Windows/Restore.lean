/-
  File:      Tun2Proxy/Windows/Restore.lean
  Subject:   The network setup restores the machine.

  The record of a session is tied to the system (`Tied`): the table is the original one and the
  rows the session owns, which are not in the original one; every interface is as it was, or has a
  snapshot whose restoring patch brings its flags back; the DNS servers are the original ones
  unless the record says they were changed. Every function keeps this, wherever it stops, and a
  cleanup that reports no failure has nothing left to undo (`transaction_restores`).
-/
import Tun2Proxy.Windows.Transaction

namespace Tun2Proxy.Windows

open Prog (Runs)

variable {reports : Os → List (RouteSpec × Nat) → Prop} {os₀ os₁ : Os} {w w' : World}

@[grind =]
theorem World.settings_setFlags (w : World) (luid luid' : Luid) (v : InterfaceSettings) :
    (w.setFlags luid v).os.settings luid' = if luid' = luid then some v else w.os.settings luid' :=
  Function.update_apply _ _ _ _

/-! ## 1. Routes -/

/-- The table is the original one and the rows of the session; the rest is as in `os₁`. -/
structure RoutesTied (os₀ os₁ : Os) (owned : List RouteSpec) (w : World) : Prop where
  routes : ∀ r, r ∈ w.os.routes ↔ r ∈ os₀.routes ∨ r ∈ owned
  fresh : ∀ r ∈ owned, r ∉ os₀.routes
  nodup : owned.Nodup
  dns : w.os.dns = os₁.dns
  settings : w.os.settings = os₁.settings

namespace RoutesTied

variable {owned owned' : List RouteSpec} {r : RouteSpec}

theorem attempt (h : RoutesTied os₀ os₁ owned w) : RoutesTied os₀ os₁ owned w.attempt :=
  ⟨h.routes, h.fresh, h.nodup, h.dns, h.settings⟩

theorem perm (h : RoutesTied os₀ os₁ owned w) (hp : owned.Perm owned') :
    RoutesTied os₀ os₁ owned' w where
  routes r := by rw [h.routes, hp.mem_iff]
  fresh r hr := h.fresh r (hp.mem_iff.mpr hr)
  nodup := hp.nodup_iff.mp h.nodup
  dns := h.dns
  settings := h.settings

/-- A row that was created is new to the table. -/
theorem create (h : RoutesTied os₀ os₁ owned w) (hr : r ∉ w.os.routes) :
    r ∉ owned ∧ r ∉ os₀.routes ∧ RoutesTied os₀ os₁ (owned ++ [r]) (w.create r) := by
  rw [h.routes, not_or] at hr
  refine ⟨hr.2, hr.1, ?_, ?_, ?_, h.dns, h.settings⟩
  · grind [World.create, h.routes]
  · grind [h.fresh]
  · grind [h.nodup]

/-- Deleting a row that is not an original one takes it from the session. -/
theorem delete (h : RoutesTied os₀ os₁ owned w) (hr : r ∉ os₀.routes) :
    RoutesTied os₀ os₁ (owned.filter (· != r)) (w.delete r) where
  routes := by grind [World.delete, h.routes]
  fresh x hx := h.fresh x (List.mem_of_mem_filter hx)
  nodup := h.nodup.filter _
  dns := h.dns
  settings := h.settings

/-- The first of the session's rows is deleted. -/
theorem delete_head (h : RoutesTied os₀ os₁ (r :: owned) w) :
    RoutesTied os₀ os₁ owned (w.delete r) := by
  have hd := h.delete (h.fresh r List.mem_cons_self)
  have hfilter : (r :: owned).filter (· != r) = owned := by
    rw [← h.nodup.erase_eq_filter, List.erase_cons_head]
  rw [hfilter] at hd
  exact hd

end RoutesTied

/-- What is left after deleting rows one after the other: those that could not be deleted. -/
theorem deleteRoutes_runs {rs keep : List RouteSpec} {failed : List (RouteSpec × OsError)}
    (h : Runs (NetworkOp.Step reports) (deleteRoutes rs) w failed w')
    (htied : RoutesTied os₀ os₁ (rs ++ keep) w) :
    (failed.map Prod.fst).Sublist rs ∧ RoutesTied os₀ os₁ (failed.map Prod.fst ++ keep) w' := by
  induction rs generalizing w failed keep with
  | nil =>
    cases h
    exact ⟨List.Sublist.slnil, htied⟩
  | cons r rs ih =>
    rw [deleteRoutes] at h
    rcases runs_deleteRoute h with h | ⟨e, h⟩
    · obtain ⟨hsub, ht⟩ := ih h htied.delete_head
      exact ⟨hsub.cons r, ht⟩
    · obtain ⟨failed', t, h', hpure⟩ := Prog.runs_bind.mp h
      cases hpure
      -- the row stays, behind the rows still to be tried
      have hperm : (r :: rs ++ keep).Perm (rs ++ (r :: keep)) := List.perm_middle.symm
      obtain ⟨hsub, ht⟩ := ih h' (htied.attempt.perm hperm)
      exact ⟨hsub.cons_cons r, ht.perm List.perm_middle⟩

variable {owned owned' : List RouteSpec}

theorem createPlanned_runs {planned : List RouteSpec} {failed : Option (RouteSpec × OsError)}
    (h : Runs (NetworkOp.Step reports) (createPlanned planned owned) w (failed, owned') w')
    (htied : RoutesTied os₀ os₁ owned w) : RoutesTied os₀ os₁ owned' w' := by
  induction planned generalizing w owned with
  | nil =>
    cases h
    exact htied
  | cons r planned ih =>
    rw [createPlanned] at h
    rcases runs_createRoute h with ⟨hr, h⟩ | ⟨-, h⟩ | ⟨e, h⟩
    · exact ih h (htied.create hr).2.2
    · exact ih h htied.attempt
    · cases h
      exact htied.attempt

variable {result : Except OsError Unit}

theorem retireRoutes_runs {tunLuid : Luid} {desired : RouteSpec} {keep : List RouteSpec}
    (h : Runs (NetworkOp.Step reports) (retireRoutes tunLuid desired owned) w (result, owned') w')
    (htied : RoutesTied os₀ os₁ (owned ++ keep) w) :
    RoutesTied os₀ os₁ (owned' ++ keep) w' := by
  induction owned generalizing w owned' keep with
  | nil =>
    cases h
    exact htied
  | cons old owned ih =>
    rw [retireRoutes] at h
    split at h
    · rcases runs_deleteRoute h with h | ⟨e, h⟩
      · exact ih h htied.delete_head
      · cases h
        exact htied.attempt
    · obtain ⟨⟨result', owned''⟩, t, h', hpure⟩ := Prog.runs_bind.mp h
      cases hpure
      have hperm : (old :: owned ++ keep).Perm (owned ++ (old :: keep)) := List.perm_middle.symm
      exact (ih h' (htied.perm hperm)).perm List.perm_middle

theorem installReplacement_runs {routes : List (RouteSpec × Nat)} {new : RouteSpec}
    {result : Except OsError (List RouteSpec)}
    (h : Runs (NetworkOp.Step reports) (installReplacement routes new owned) w result w')
    (htied : RoutesTied os₀ os₁ owned w) :
    RoutesTied os₀ os₁ (result.toOption.getD owned) w' := by
  unfold installReplacement at h
  split at h
  · cases h
    exact htied
  · rcases runs_createRoute h with ⟨hr, h⟩ | ⟨-, h⟩ | ⟨e, h⟩
    · obtain ⟨hn, -, ht⟩ := htied.create hr
      have hcond : (decide (AddOutcome.Created = .Created) && !owned.contains new) = true := by
        simpa using hn
      dsimp only at h
      rw [if_pos hcond] at h
      cases h
      exact ht
    · dsimp only at h
      rw [if_neg (by simp)] at h
      cases h
      exact htied.attempt
    · cases h
      exact htied.attempt

theorem reconcileDesired_runs {tunLuid : Luid} {routes : List (RouteSpec × Nat)}
    {desired desired' : List RouteSpec}
    (h : Runs (NetworkOp.Step reports) (reconcileDesired tunLuid routes desired owned) w
      (result, desired', owned') w') (htied : RoutesTied os₀ os₁ owned w) :
    RoutesTied os₀ os₁ owned' w' := by
  induction desired generalizing w owned desired' owned' with
  | nil =>
    cases h
    exact htied
  | cons old rest ih =>
    rw [reconcileDesired] at h
    split at h
    · obtain ⟨⟨result', rest', owned''⟩, t, h', hpure⟩ := Prog.runs_bind.mp h
      cases hpure
      exact ih h' htied
    · obtain ⟨installed, t, hinstall, h⟩ := Prog.runs_bind.mp h
      have ht := installReplacement_runs hinstall htied
      cases installed with
      | error e =>
        cases h
        exact ht
      | ok owned₁ =>
        obtain ⟨⟨retired, owned₂⟩, t₂, hretire, h⟩ := Prog.runs_bind.mp h
        have ht₁ : RoutesTied os₀ os₁ (owned₁ ++ []) t := by
          rw [List.append_nil]
          exact ht
        have ht₂ := retireRoutes_runs hretire ht₁
        rw [List.append_nil] at ht₂
        cases retired with
        | error e =>
          cases h
          exact ht₂
        | ok _ =>
          obtain ⟨⟨result', rest', owned''⟩, t₃, h', hpure⟩ := Prog.runs_bind.mp h
          cases hpure
          exact ih h' ht₂

/-- The rows an update has added were not in the original table. -/
theorem installUpstream_runs {planned : List RouteSpec} {update update' : PreparedBypasses}
    {result : Except UpdateError Unit}
    (h : Runs (NetworkOp.Step reports) (installUpstream planned owned update) w
      (result, owned', update') w') (htied : RoutesTied os₀ os₁ owned w)
    (hadded : ∀ r ∈ update.added, r ∉ os₀.routes) :
    RoutesTied os₀ os₁ owned' w' ∧ ∀ r ∈ update'.added, r ∉ os₀.routes := by
  induction planned generalizing w owned update with
  | nil =>
    cases h
    exact ⟨htied, hadded⟩
  | cons r planned ih =>
    rw [installUpstream] at h
    rcases runs_createRoute h with ⟨hr, h⟩ | ⟨-, h⟩ | ⟨e, h⟩
    · obtain ⟨hn, hr₀, ht⟩ := htied.create hr
      have hcond : (decide (AddOutcome.Created = .Created) && !owned.contains r) = true := by
        simpa using hn
      dsimp only at h
      rw [if_pos hcond] at h
      exact ih h ht (by grind)
    · dsimp only at h
      rw [if_neg (by simp)] at h
      exact ih h htied.attempt hadded
    · cases h
      exact ⟨htied.attempt, hadded⟩

variable {record' : InstallRecord}

/-- The rows left to be tried again are among those given. -/
theorem rollbackUpstreamBypasses_runs {record : InstallRecord} {routes routes' : List RouteSpec}
    (h : Runs (NetworkOp.Step reports) (rollbackUpstreamBypasses record routes) w
      (record', routes') w') (htied : RoutesTied os₀ os₁ record.ownedRoutes w)
    (hroutes : ∀ r ∈ routes, r ∉ os₀.routes) :
    RoutesTied os₀ os₁ record'.ownedRoutes w' ∧
      record' = { record with ownedRoutes := record'.ownedRoutes } := by
  induction routes generalizing w record record' routes' with
  | nil =>
    cases h
    exact ⟨htied, rfl⟩
  | cons r routes ih =>
    have hrest : ∀ x ∈ routes, x ∉ os₀.routes := fun x hx => hroutes x (List.mem_cons_of_mem r hx)
    rw [rollbackUpstreamBypasses] at h
    rcases runs_deleteRoute h with h | ⟨e, h⟩
    · have hdeleted := ih h (htied.delete (hroutes r List.mem_cons_self)) hrest
      exact hdeleted
    · obtain ⟨⟨record'', routes''⟩, t, h', hpure⟩ := Prog.runs_bind.mp h
      cases hpure
      exact ih h' htied.attempt hrest

/-! ## 2. Interfaces -/

/-- Setting the flags of the patch gives back what was before. -/
def InterfaceSnapshot.Restores (s : InterfaceSnapshot) (v : InterfaceSettings) : Prop :=
  s.restore.apply v = s.before

/-- Every interface is as it was, or its snapshot brings it back; the rest is as in `os₁`. -/
structure SettingsTied (os₀ os₁ : Os) (snapshots : List InterfaceSnapshot) (w : World) : Prop where
  nodup : (snapshots.map (·.target.luid)).Nodup
  before : ∀ s ∈ snapshots, os₀.settings s.target.luid = some s.before
  restores : ∀ s ∈ snapshots, ∃ v, w.os.settings s.target.luid = some v ∧ s.Restores v
  untouched : ∀ luid, luid ∉ snapshots.map (·.target.luid) → w.os.settings luid = os₀.settings luid
  routes : w.os.routes = os₁.routes
  dns : w.os.dns = os₁.dns

/-- One flag: what was recorded still brings it back, whether the patch was applied or not. -/
theorem mergeFlag_getD {restore patch : Option Bool} {before v : Bool}
    (h : restore.getD v = before) :
    (InterfacePatch.mergeFlag restore patch before).getD (patch.getD v) = before ∧
      (InterfacePatch.mergeFlag restore patch before).getD v = before := by
  subst h
  cases restore <;> cases patch <;> exact ⟨rfl, rfl⟩

variable {patch : InterfacePatch}

/-- **A recorded patch can be undone, whether it was applied or not.** -/
theorem mergeOwned_apply {restore : InterfacePatch} {before v : InterfaceSettings}
    (h : restore.apply v = before) :
    (restore.mergeOwned patch before).apply (patch.apply v) = before ∧
      (restore.mergeOwned patch before).apply v = before := by
  obtain ⟨h1, h2, h3⟩ := Flags.ext_iff.mp h
  constructor
  · exact Flags.ext (mergeFlag_getD h1).1 (mergeFlag_getD h2).1 (mergeFlag_getD h3).1
  · exact Flags.ext (mergeFlag_getD h1).2 (mergeFlag_getD h2).2 (mergeFlag_getD h3).2

theorem apply_of_isEmpty (h : patch.isEmpty = true) (v : InterfaceSettings) :
    patch.apply v = v := by
  unfold InterfacePatch.isEmpty at h
  simp only [Bool.and_eq_true, Option.isNone_iff_eq_none] at h
  unfold InterfacePatch.apply
  rw [h.1.1, h.1.2, h.2]
  rfl

/-- What `recordPatch` does to one snapshot. -/
def InterfaceSnapshot.record (luid : Luid) (patch : InterfacePatch) (s : InterfaceSnapshot) :
    InterfaceSnapshot :=
  if s.target.luid = luid then { s with restore := s.restore.mergeOwned patch s.before } else s

theorem InterfaceSnapshot.record_target (s : InterfaceSnapshot) {luid : Luid} :
    (s.record luid patch).target = s.target := by
  unfold InterfaceSnapshot.record
  split <;> rfl

theorem InterfaceSnapshot.record_before (s : InterfaceSnapshot) {luid : Luid} :
    (s.record luid patch).before = s.before := by
  unfold InterfaceSnapshot.record
  split <;> rfl

variable {snapshots : List InterfaceSnapshot}

/-- There is one snapshot of an interface, so the first is the one. -/
theorem recordPatch_eq_map {luid : Luid} (hn : (snapshots.map (·.target.luid)).Nodup) :
    recordPatch luid patch snapshots = snapshots.map (·.record luid patch) := by
  induction snapshots with
  | nil => rfl
  | cons s snapshots ih =>
    obtain ⟨hs, hn⟩ := List.nodup_cons.mp hn
    rw [recordPatch, List.map_cons, InterfaceSnapshot.record]
    by_cases heq : s.target.luid = luid
    · have hrest : snapshots.map (·.record luid patch) = snapshots := by
        refine (List.map_congr_left fun x hx => ?_).trans (List.map_id _)
        refine if_neg fun e => hs (List.mem_map.mpr ⟨x, hx, ?_⟩)
        exact e.trans heq.symm
      rw [if_pos heq, if_pos heq, hrest]
    · rw [if_neg heq, if_neg heq, ih hn]

theorem map_record_luid (luid : Luid) (patch : InterfacePatch)
    (snapshots : List InterfaceSnapshot) :
    (snapshots.map (·.record luid patch)).map (·.target.luid) =
      snapshots.map (·.target.luid) := by
  rw [List.map_map]
  exact List.map_congr_left fun s _ => by rw [Function.comp, s.record_target]

/-- The interface has its snapshot, or gets one. -/
theorem addSnapshot_cases (target : InterfaceTarget) (v : InterfaceSettings)
    (snapshots : List InterfaceSnapshot) :
    (target.luid ∈ snapshots.map (·.target.luid) ∧
      addSnapshot target v snapshots = snapshots) ∨
    (target.luid ∉ snapshots.map (·.target.luid) ∧
      addSnapshot target v snapshots = snapshots ++ [⟨target, v, .empty⟩]) := by
  unfold addSnapshot
  split_ifs with hany <;> grind

theorem nodup_snapshots {s : InterfaceSnapshot} (h : (snapshots.map (·.target.luid)).Nodup)
    (hn : s.target.luid ∉ snapshots.map (·.target.luid)) :
    ((snapshots ++ [s]).map (·.target.luid)).Nodup := by
  rw [List.map_append]
  grind

namespace SettingsTied

variable {snapshots snapshots' : List InterfaceSnapshot} {luid : Luid} {v : InterfaceSettings}

theorem attempt (h : SettingsTied os₀ os₁ snapshots w) : SettingsTied os₀ os₁ snapshots w.attempt :=
  ⟨h.nodup, h.before, h.restores, h.untouched, h.routes, h.dns⟩

theorem perm (h : SettingsTied os₀ os₁ snapshots w) (hp : snapshots.Perm snapshots') :
    SettingsTied os₀ os₁ snapshots' w where
  nodup := (hp.map _).nodup_iff.mp h.nodup
  before s hs := h.before s (hp.mem_iff.mpr hs)
  restores s hs := h.restores s (hp.mem_iff.mpr hs)
  untouched luid hn := h.untouched luid fun hm => hn ((hp.map _).mem_iff.mp hm)
  routes := h.routes
  dns := h.dns

/-- A new snapshot is taken of an interface nobody has changed. -/
theorem addSnapshot {target : InterfaceTarget} (h : SettingsTied os₀ os₁ snapshots w)
    (hv : w.os.settings target.luid = some v) :
    SettingsTied os₀ os₁ (addSnapshot target v snapshots) w ∧
      target.luid ∈ (Windows.addSnapshot target v snapshots).map (·.target.luid) := by
  rcases addSnapshot_cases target v snapshots with ⟨hmem, heq⟩ | ⟨hn, heq⟩
  · rw [heq]
    exact ⟨h, hmem⟩
  · rw [heq]
    have hrestores : (⟨target, v, .empty⟩ : InterfaceSnapshot).Restores v := rfl
    refine ⟨⟨nodup_snapshots h.nodup hn, ?_, ?_, ?_, h.routes, h.dns⟩, by simp⟩
    · grind [h.before, h.untouched]
    · grind [h.restores]
    · grind [h.untouched]

/-- **The flags to be changed are recorded before they are changed**: the tie holds whether the
    patch is applied or not. -/
theorem recordPatch (h : SettingsTied os₀ os₁ snapshots w) (patch : InterfacePatch)
    (hmem : luid ∈ snapshots.map (·.target.luid)) (hv : w.os.settings luid = some v) :
    SettingsTied os₀ os₁ (recordPatch luid patch snapshots) w.attempt ∧
      SettingsTied os₀ os₁ (Windows.recordPatch luid patch snapshots)
        (w.setFlags luid (patch.apply v)) := by
  rw [recordPatch_eq_map h.nodup]
  have hmap := map_record_luid luid patch snapshots
  have hbefore : ∀ s ∈ snapshots.map (·.record luid patch),
      os₀.settings s.target.luid = some s.before := by
    grind [h.before, InterfaceSnapshot.record_target, InterfaceSnapshot.record_before]
  -- both outcomes for the interface itself, from what was recorded before
  have hboth : ∀ s ∈ snapshots, s.target.luid = luid →
      (s.record luid patch).Restores (patch.apply v) ∧ (s.record luid patch).Restores v := by
    intro s hs heq
    obtain ⟨v', hv', hres⟩ := h.restores s hs
    rw [heq, hv] at hv'
    cases hv'
    rw [InterfaceSnapshot.record, if_pos heq]
    exact mergeOwned_apply hres
  refine ⟨⟨hmap ▸ h.nodup, hbefore, ?_, ?_, h.routes, h.dns⟩,
    hmap ▸ h.nodup, hbefore, ?_, ?_, h.routes, h.dns⟩
  · grind [h.restores, World.attempt, InterfaceSnapshot.record]
  · exact fun luid' hn => h.untouched luid' (hmap ▸ hn)
  · intro s' hs'
    obtain ⟨s, hs, rfl⟩ := List.mem_map.mp hs'
    grind [h.restores, InterfaceSnapshot.record_target, InterfaceSnapshot.record]
  · intro luid' hn
    rw [hmap] at hn
    grind [h.untouched]

/-- An interface whose flags are as before needs no snapshot. -/
theorem drop {s : InterfaceSnapshot} (h : SettingsTied os₀ os₁ (s :: snapshots) w)
    (hv : w.os.settings s.target.luid = some s.before) : SettingsTied os₀ os₁ snapshots w where
  nodup := (List.nodup_cons.mp h.nodup).2
  before x hx := h.before x (List.mem_cons_of_mem s hx)
  restores x hx := h.restores x (List.mem_cons_of_mem s hx)
  untouched luid hn := by
    by_cases heq : luid = s.target.luid
    · rw [heq, hv, h.before s List.mem_cons_self]
    · exact h.untouched luid fun hm => (List.mem_cons.mp hm).elim heq hn
  routes := h.routes
  dns := h.dns

/-- An interface whose restoring patch was applied needs no snapshot. -/
theorem restored {s : InterfaceSnapshot} (h : SettingsTied os₀ os₁ (s :: snapshots) w)
    (hv : w.os.settings s.target.luid = some v) :
    SettingsTied os₀ os₁ snapshots (w.setFlags s.target.luid (s.restore.apply v)) := by
  obtain ⟨v', hv', hres⟩ := h.restores s List.mem_cons_self
  rw [hv] at hv'
  cases hv'
  obtain ⟨hs, hn⟩ := List.nodup_cons.mp h.nodup
  refine ⟨hn, fun x hx => h.before x (List.mem_cons_of_mem s hx), ?_, ?_, h.routes, h.dns⟩
  · grind [h.restores]
  · grind [h.untouched, h.before, InterfaceSnapshot.Restores]

end SettingsTied

theorem reconcileTargets_runs {targets : List InterfaceTarget} {unique : List Luid}
    {snapshots' : List InterfaceSnapshot} {result : Except ReconcileError Unit}
    (h : Runs (NetworkOp.Step reports) (reconcileTargets targets unique snapshots) w
      (result, snapshots') w') (htied : SettingsTied os₀ os₁ snapshots w) :
    SettingsTied os₀ os₁ snapshots' w' := by
  induction targets generalizing w unique snapshots with
  | nil =>
    cases h
    exact htied
  | cons target targets ih =>
    rw [reconcileTargets] at h
    split at h
    · exact ih h htied
    · rcases runs_interfaceSettings h with ⟨v, hv, h⟩ | ⟨e, h⟩
      · obtain ⟨htied, hmem⟩ := htied.addSnapshot hv
        dsimp only at h
        split at h
        · exact ih h htied
        · rename_i hne
          obtain ⟨hfailed, hdone⟩ :=
            htied.recordPatch (requiredInterfacePatch target.role v) hmem hv
          rcases runs_applyInterfacePatch (Bool.eq_false_iff.mpr hne) h with
            ⟨v', hv', h⟩ | ⟨e, -, h⟩
          · rw [hv] at hv'
            cases hv'
            exact ih h hdone
          · cases h
            exact hfailed
      · dsimp only at h
        split at h
        · exact ih h htied
        · cases h
          exact htied

theorem reconcileInterfaceSettings_runs {tunTarget : InterfaceTarget}
    {snapshots' : List InterfaceSnapshot} {result : Except ReconcileError Unit}
    (h : Runs (NetworkOp.Step reports) (reconcileInterfaceSettings tunTarget snapshots) w
      (result, snapshots') w') (htied : SettingsTied os₀ os₁ snapshots w) :
    SettingsTied os₀ os₁ snapshots' w' := by
  obtain ⟨listed, h⟩ := runs_observes h trivial
  cases listed with
  | error e =>
    cases h
    exact htied
  | ok targets => exact reconcileTargets_runs h htied

/-- Restoring one interface after the other: what failed stays, with its flags as they were; what
    did not is as before. -/
theorem restoreInterfaces_runs {ss keep : List InterfaceSnapshot}
    {failed : List (InterfaceSnapshot × OsError)}
    (h : Runs (NetworkOp.Step reports) (restoreInterfaces ss) w failed w')
    (htied : SettingsTied os₀ os₁ (ss ++ keep) w) :
    (failed.map Prod.fst).Sublist ss ∧ SettingsTied os₀ os₁ (failed.map Prod.fst ++ keep) w' ∧
      ∀ s ∈ failed.map Prod.fst ++ keep,
        w'.os.settings s.target.luid = w.os.settings s.target.luid := by
  induction ss generalizing w failed keep with
  | nil =>
    cases h
    exact ⟨List.Sublist.slnil, htied, fun _ _ => rfl⟩
  | cons s ss ih =>
    obtain ⟨v, hv, hres⟩ := htied.restores s List.mem_cons_self
    rw [restoreInterfaces] at h
    split at h
    · rename_i hempty
      rw [InterfaceSnapshot.Restores, apply_of_isEmpty hempty] at hres
      obtain ⟨hsub, ht, hsame⟩ := ih h (htied.drop (hres ▸ hv))
      exact ⟨hsub.cons s, ht, hsame⟩
    · rename_i hne
      rcases runs_applyInterfacePatch (Bool.eq_false_iff.mpr hne) h with
        ⟨v', hv', h⟩ | ⟨e, hmiss, h⟩
      · obtain ⟨hsub, ht, hsame⟩ := ih h (htied.restored hv')
        refine ⟨hsub.cons s, ht, fun x hx => ?_⟩
        have hmem : x ∈ ss ++ keep := (List.Sublist.append_right hsub keep).subset hx
        have hne : x.target.luid ≠ s.target.luid := fun e =>
          (List.nodup_cons.mp htied.nodup).1 (List.mem_map.mpr ⟨x, hmem, e⟩)
        rw [hsame x hx]
        exact Function.update_of_ne hne _ _
      · -- the interface is there, so this is not the error of a missing one
        have hfound : isMissingInterfaceError e = false := by
          rw [Bool.eq_false_iff]
          intro hm
          rw [hmiss hm] at hv
          cases hv
        dsimp only at h
        rw [hfound, Bool.false_and, if_neg Bool.false_ne_true] at h
        obtain ⟨failed', t, h', hpure⟩ := Prog.runs_bind.mp h
        cases hpure
        have hperm : (s :: ss ++ keep).Perm (ss ++ (s :: keep)) := List.perm_middle.symm
        obtain ⟨hsub, ht, hsame⟩ := ih h' (htied.attempt.perm hperm)
        exact ⟨hsub.cons_cons s, ht.perm List.perm_middle,
          fun x hx => hsame x (List.perm_middle.mem_iff.mpr hx)⟩

/-! ## 3. DNS servers -/

/-- The DNS servers are the original ones, but for those of the TUN when the record says so. -/
structure DnsTied (os₀ : Os) (record : InstallRecord) (w : World) : Prop where
  others : ∀ luid, luid ≠ record.tunLuid → w.os.dns luid = os₀.dns luid
  before : record.dnsBefore.nameServers = os₀.dns record.tunLuid
  unchanged : record.dnsChanged = false → w.os.dns record.tunLuid = os₀.dns record.tunLuid

/-- The call touched the DNS servers alone. -/
structure OnlyDns (w w' : World) : Prop where
  routes : w'.os.routes = w.os.routes
  settings : w'.os.settings = w.os.settings

/-- The servers are put back, or the failure is the last one and nothing changed. -/
theorem restoreDns_runs {record : InstallRecord} {failures failures' : List Failure}
    (h : Runs (NetworkOp.Step reports) (restoreDns record failures) w (failures', record') w')
    (htied : DnsTied os₀ record w) (hnone : ∀ f ∈ failures, f.isDns = false) :
    OnlyDns w w' ∧ DnsTied os₀ record' w' ∧ ∃ dnsError : Option OsError,
      failures' = failures ++ dnsError.toList.map Failure.dns ∧
      record' = { record with dnsChanged := dnsError.isSome } ∧
      w'.os.dns record.tunLuid =
        if dnsError.isSome then w.os.dns record.tunLuid else record.dnsBefore.nameServers := by
  have hlast : failures.getLast?.any Failure.isDns = false := by
    rw [Option.any_eq_false]
    exact fun f hf => hnone f (List.mem_of_getLast? hf)
  unfold restoreDns at h
  split at h
  · rename_i hchanged
    rcases runs_setDns h with h | ⟨e, h⟩
    · obtain ⟨failures₁, t, hset, h⟩ := Prog.runs_bind.mp h
      cases hset
      dsimp only at h
      rw [hlast, if_neg Bool.false_ne_true] at h
      cases h
      have hself : (w.setDns record.tunLuid record.dnsBefore.nameServers).os.dns record.tunLuid =
          record.dnsBefore.nameServers := Function.update_self ..
      refine ⟨⟨rfl, rfl⟩, ⟨fun luid hne => ?_, htied.before, fun _ => ?_⟩, none, ?_, rfl, hself⟩
      · exact (Function.update_of_ne hne _ _).trans (htied.others luid hne)
      · exact hself.trans htied.before
      · exact (List.append_nil _).symm
    · obtain ⟨failures₁, t, hset, h⟩ := Prog.runs_bind.mp h
      cases hset
      dsimp only at h
      rw [if_pos (by simp [Failure.isDns])] at h
      cases h
      refine ⟨⟨rfl, rfl⟩, ⟨htied.others, htied.before, htied.unchanged⟩, some e, rfl, ?_, rfl⟩
      rw [Option.isSome_some, ← hchanged]
  · rename_i hchanged
    have hchanged := Bool.eq_false_iff.mpr hchanged
    cases h
    refine ⟨⟨rfl, rfl⟩, htied, none, (List.append_nil _).symm, ?_,
      (htied.unchanged hchanged).trans htied.before.symm⟩
    rw [Option.isSome_none, ← hchanged]

/-! ## 4. The record -/

/-- **The record of the session accounts for every change.** -/
structure Tied (os₀ : Os) (record : InstallRecord) (w : World) : Prop where
  routes : RoutesTied os₀ w.os record.ownedRoutes w
  settings : SettingsTied os₀ w.os record.interfaceSnapshots w
  dns : DnsTied os₀ record w

namespace Tied

variable {record : InstallRecord}

theorem onlyRoutes {owned : List RouteSpec} (h : Tied os₀ record w) (desired : List RouteSpec)
    (hr : RoutesTied os₀ w.os owned w') :
    Tied os₀ { record with ownedRoutes := owned, desiredBypasses := desired } w' where
  routes := { hr with dns := rfl, settings := rfl }
  settings := ⟨h.settings.nodup, h.settings.before, hr.settings ▸ h.settings.restores,
    hr.settings ▸ h.settings.untouched, rfl, rfl⟩
  dns := ⟨hr.dns ▸ h.dns.others, h.dns.before, hr.dns ▸ h.dns.unchanged⟩

theorem onlySettings {snapshots : List InterfaceSnapshot} (h : Tied os₀ record w)
    (hs : SettingsTied os₀ w.os snapshots w') :
    Tied os₀ { record with interfaceSnapshots := snapshots } w' where
  routes := ⟨hs.routes ▸ h.routes.routes, h.routes.fresh, h.routes.nodup, rfl, rfl⟩
  settings := { hs with routes := rfl, dns := rfl }
  dns := ⟨hs.dns ▸ h.dns.others, h.dns.before, hs.dns ▸ h.dns.unchanged⟩

theorem onlyDns {changed : Bool} (h : Tied os₀ record w) (honly : OnlyDns w w')
    (hd : DnsTied os₀ { record with dnsChanged := changed } w') :
    Tied os₀ { record with dnsChanged := changed } w' where
  routes := ⟨honly.routes ▸ h.routes.routes, h.routes.fresh, h.routes.nodup, rfl, rfl⟩
  settings := ⟨h.settings.nodup, h.settings.before, honly.settings ▸ h.settings.restores,
    honly.settings ▸ h.settings.untouched, rfl, rfl⟩
  dns := hd

/-- Before the first change. -/
theorem initial (hroutes : record.ownedRoutes = []) (hsnapshots : record.interfaceSnapshots = [])
    (hdns : record.dnsBefore.nameServers = w.os.dns record.tunLuid) : Tied w.os record w where
  routes := by
    rw [hroutes]
    exact ⟨fun r => by simp, nofun, List.nodup_nil, rfl, rfl⟩
  settings := by
    rw [hsnapshots]
    exact ⟨List.nodup_nil, nofun, nofun, fun _ _ => rfl, rfl, rfl⟩
  dns := ⟨fun _ _ => rfl, hdns, fun _ => rfl⟩

/-- Nothing recorded, nothing changed. -/
theorem restored (h : Tied os₀ record w) (hroutes : record.ownedRoutes = [])
    (hsnapshots : record.interfaceSnapshots = []) (hdns : record.dnsChanged = false) :
    w.os = os₀ := by
  have hr : w.os.routes = os₀.routes := Finset.ext fun r => by
    rw [h.routes.routes, hroutes]
    simp
  have hs : w.os.settings = os₀.settings := funext fun luid =>
    h.settings.untouched luid (by rw [hsnapshots]; exact List.not_mem_nil)
  have hd : w.os.dns = os₀.dns := funext fun luid => by
    by_cases heq : luid = record.tunLuid
    · rw [heq]
      exact h.dns.unchanged hdns
    · exact h.dns.others luid heq
  rw [show w.os = ⟨w.os.routes, w.os.dns, w.os.settings⟩ from rfl, hr, hs, hd]

end Tied

/-! ## 5. Removal -/

/-- The failure is that of the row. -/
def Failure.isRoute (r : RouteSpec) : Failure → Bool
  | .route r' _ => r' == r
  | _ => false

/-- The failure is that of the interface. -/
def Failure.isInterface (target : InterfaceTarget) : Failure → Bool
  | .interface target' _ => target' == target
  | _ => false

/-- **A failed cleanup keeps in the record what it could not undo, and nothing else**: the rows,
    snapshots and DNS servers a failure was reported for. A row that is kept is in the table, one
    that is not is gone; flags and servers that are kept were not touched, the others are as
    before. -/
structure Kept (record : InstallRecord) (w : World) (failures : List Failure)
    (record' : InstallRecord) (w' : World) : Prop where
  routes : record'.ownedRoutes =
    record.ownedRoutes.filter fun r => failures.any (Failure.isRoute r)
  interfaces : record'.interfaceSnapshots =
    record.interfaceSnapshots.filter fun s => failures.any (Failure.isInterface s.target)
  dns : record'.dnsChanged = failures.any Failure.isDns
  deleted : ∀ r ∈ record.ownedRoutes, r ∈ w'.os.routes ↔ r ∈ record'.ownedRoutes
  flags : ∀ s ∈ record.interfaceSnapshots, w'.os.settings s.target.luid =
    if s ∈ record'.interfaceSnapshots then w.os.settings s.target.luid else some s.before
  servers : w'.os.dns record.tunLuid =
    if record'.dnsChanged then w.os.dns record.tunLuid else record.dnsBefore.nameServers
  others : record' = { record with
    ownedRoutes := record'.ownedRoutes, interfaceSnapshots := record'.interfaceSnapshots,
    dnsChanged := record'.dnsChanged, removed := false }

/-- A sublist of a list without duplicates is what it keeps of it. -/
theorem eq_filter_of_sublist {α : Type} {l l' : List α} {keep : α → Bool} (hn : l.Nodup)
    (hsub : l'.Sublist l) (hkeep : ∀ x ∈ l, keep x = true ↔ x ∈ l') : l' = l.filter keep := by
  induction hsub with
  | slnil => rfl
  | @cons l' l x hsub ih =>
    obtain ⟨hx, hn⟩ := List.nodup_cons.mp hn
    rw [List.filter_cons_of_neg fun hk =>
      hx (hsub.subset ((hkeep x List.mem_cons_self).mp hk))]
    exact ih hn fun y hy => hkeep y (List.mem_cons_of_mem x hy)
  | @cons_cons l' l x hsub ih =>
    obtain ⟨hx, hn⟩ := List.nodup_cons.mp hn
    rw [List.filter_cons_of_pos ((hkeep x List.mem_cons_self).mpr List.mem_cons_self),
      ← ih hn fun y hy => ?_]
    rw [hkeep y (List.mem_cons_of_mem x hy), List.mem_cons]
    exact or_iff_right fun e => hx (e ▸ hy)

section Failures

variable {failedRoutes : List (RouteSpec × OsError)} {dnsError : Option OsError}
  {failedSnapshots : List (InterfaceSnapshot × OsError)}

/-- The failures of a cleanup, in their order. -/
def cleanupFailures (failedRoutes : List (RouteSpec × OsError)) (dnsError : Option OsError)
    (failedSnapshots : List (InterfaceSnapshot × OsError)) : List Failure :=
  failedRoutes.map (fun f => Failure.route f.1 f.2) ++ dnsError.toList.map Failure.dns ++
    failedSnapshots.map fun f => Failure.interface f.1.target f.2

theorem cleanupFailures_isRoute {r : RouteSpec} :
    (cleanupFailures failedRoutes dnsError failedSnapshots).any (Failure.isRoute r) = true ↔
      r ∈ failedRoutes.map Prod.fst := by
  simp [cleanupFailures, Failure.isRoute]

theorem cleanupFailures_isInterface {target : InterfaceTarget} :
    (cleanupFailures failedRoutes dnsError failedSnapshots).any (Failure.isInterface target) =
      true ↔ ∃ s ∈ failedSnapshots.map Prod.fst, s.target = target := by
  simp [cleanupFailures, Failure.isInterface]

theorem cleanupFailures_isDns :
    (cleanupFailures failedRoutes dnsError failedSnapshots).any Failure.isDns =
      dnsError.isSome := by
  cases dnsError <;> simp [cleanupFailures, Failure.isDns]

theorem cleanupFailures_isEmpty :
    (cleanupFailures failedRoutes dnsError failedSnapshots).isEmpty = true ↔
      failedRoutes = [] ∧ dnsError = none ∧ failedSnapshots = [] := by
  simp [cleanupFailures]

end Failures

/-- The rows of the session are deleted, the last one first. -/
theorem RoutesTied.deleteRoutes_reverse {failed : List (RouteSpec × OsError)}
    (htied : RoutesTied os₀ os₁ owned w)
    (h : Runs (NetworkOp.Step reports) (deleteRoutes owned.reverse) w failed w') :
    (failed.map Prod.fst).reverse.Sublist owned ∧
      RoutesTied os₀ os₁ (failed.map Prod.fst).reverse w' := by
  have hrev : RoutesTied os₀ os₁ (owned.reverse ++ []) w := by
    rw [List.append_nil]
    exact htied.perm (List.reverse_perm _).symm
  obtain ⟨hsub, hleft⟩ := deleteRoutes_runs h hrev
  rw [List.append_nil] at hleft
  refine ⟨?_, hleft.perm (List.reverse_perm _).symm⟩
  rw [← List.reverse_reverse owned]
  exact hsub.reverse

/-- So are the flags of its interfaces restored. -/
theorem SettingsTied.restoreInterfaces_reverse {failed : List (InterfaceSnapshot × OsError)}
    (htied : SettingsTied os₀ os₁ snapshots w)
    (h : Runs (NetworkOp.Step reports) (restoreInterfaces snapshots.reverse) w failed w') :
    (failed.map Prod.fst).reverse.Sublist snapshots ∧
      SettingsTied os₀ os₁ (failed.map Prod.fst).reverse w' ∧
      ∀ s ∈ (failed.map Prod.fst).reverse,
        w'.os.settings s.target.luid = w.os.settings s.target.luid := by
  have hrev : SettingsTied os₀ os₁ (snapshots.reverse ++ []) w := by
    rw [List.append_nil]
    exact htied.perm (List.reverse_perm _).symm
  obtain ⟨hsub, hleft, hsame⟩ := restoreInterfaces_runs h hrev
  rw [List.append_nil] at hleft hsame
  refine ⟨?_, hleft.perm (List.reverse_perm _).symm,
    fun s hs => hsame s (List.mem_reverse.mp hs)⟩
  rw [← List.reverse_reverse snapshots]
  exact hsub.reverse

/-- An interface has one snapshot, so a kept one of the same interface is the same. -/
theorem SettingsTied.mem_of_luid (htied : SettingsTied os₀ os₁ snapshots w)
    {s s' : InterfaceSnapshot} {kept : List InterfaceSnapshot} (hsub : kept.Sublist snapshots)
    (hs : s ∈ snapshots) (hs' : s' ∈ kept) (heq : s'.target.luid = s.target.luid) : s ∈ kept :=
  List.inj_on_of_nodup_map htied.nodup (hsub.subset hs') hs heq ▸ hs'

/-- What the three parts of a cleanup leave. -/
theorem cleanupTransaction_parts {record : InstallRecord} {result : Except (List Failure) Unit}
    (hlive : record.removed = false)
    (h : Runs (NetworkOp.Step reports) (cleanupTransaction record) w (result, record') w') :
    ∃ failedRoutes t₁ failures record₁ t₂ failedSnapshots,
      Runs (NetworkOp.Step reports) (deleteRoutes record.ownedRoutes.reverse) w failedRoutes t₁ ∧
      Runs (NetworkOp.Step reports)
        (restoreDns { record with ownedRoutes := (failedRoutes.map Prod.fst).reverse }
          (failedRoutes.map fun f => Failure.route f.1 f.2)) t₁ (failures, record₁) t₂ ∧
      Runs (NetworkOp.Step reports) (restoreInterfaces record₁.interfaceSnapshots.reverse) t₂
        failedSnapshots w' ∧
      (let all := failures ++ failedSnapshots.map fun f => Failure.interface f.1.target f.2
       result = (if all.isEmpty then .ok () else .error all) ∧
       record' = { record₁ with
          interfaceSnapshots := (failedSnapshots.map Prod.fst).reverse
          removed := all.isEmpty }) := by
  unfold cleanupTransaction at h
  rw [if_neg (Bool.eq_false_iff.mp hlive)] at h
  obtain ⟨failedRoutes, t₁, hroutes, h⟩ := Prog.runs_bind.mp h
  obtain ⟨⟨failures, record₁⟩, t₂, hdns, h⟩ := Prog.runs_bind.mp h
  obtain ⟨failedSnapshots, t₃, hsettings, h⟩ := Prog.runs_bind.mp h
  refine ⟨failedRoutes, t₁, failures, record₁, t₂, failedSnapshots, hroutes, hdns, ?_⟩
  dsimp only at h
  split at h
  · rename_i hempty
    cases h
    exact ⟨hsettings, by rw [if_pos hempty], by rw [hempty]⟩
  · rename_i hne
    cases h
    exact ⟨hsettings, by rw [if_neg hne], by rw [Bool.eq_false_iff.mpr hne]⟩

/-- **One cleanup**: the record it leaves accounts for what is left; success leaves nothing, and a
    failure what could not be undone. -/
theorem cleanupTransaction_runs {record : InstallRecord} {result : Except (List Failure) Unit}
    (htied : Tied os₀ record w) (hlive : record.removed = false)
    (h : Runs (NetworkOp.Step reports) (cleanupTransaction record) w (result, record') w') :
    Tied os₀ record' w' ∧ (result = .ok () → w'.os = os₀) ∧
      ∀ failures, result = .error failures → Kept record w failures record' w' := by
  obtain ⟨failedRoutes, t₁, failures, record₁, t₂, failedSnapshots, hroutes, hdns, hsettings,
    hresult, hrecord⟩ := cleanupTransaction_parts hlive h
  -- the rows
  obtain ⟨hsub₁, hr₁⟩ := htied.routes.deleteRoutes_reverse hroutes
  have htied₁ := htied.onlyRoutes record.desiredBypasses hr₁
  -- the DNS servers
  have hnone : ∀ f ∈ failedRoutes.map (fun f => Failure.route f.1 f.2), f.isDns = false := by
    intro f hf
    obtain ⟨x, -, rfl⟩ := List.mem_map.mp hf
    rfl
  obtain ⟨honly₂, hd₂, dnsError, rfl, rfl, hservers⟩ := restoreDns_runs hdns htied₁.dns hnone
  have htied₂ := htied₁.onlyDns honly₂ hd₂
  -- the interfaces
  obtain ⟨hsub₃, hs₃, hsame⟩ := htied₂.settings.restoreInterfaces_reverse hsettings
  have htied₃ := htied₂.onlySettings hs₃
  have htied' : Tied os₀ record' w' := by
    rw [hrecord]
    exact ⟨htied₃.routes, htied₃.settings,
      ⟨htied₃.dns.others, htied₃.dns.before, htied₃.dns.unchanged⟩⟩
  have hall : cleanupFailures failedRoutes dnsError failedSnapshots =
      failedRoutes.map (fun f => Failure.route f.1 f.2) ++ dnsError.toList.map Failure.dns ++
        failedSnapshots.map fun f => Failure.interface f.1.target f.2 := rfl
  rw [← hall] at hresult hrecord
  refine ⟨htied', fun hok => ?_, fun fs herr => ?_⟩
  · have hempty : (cleanupFailures failedRoutes dnsError failedSnapshots).isEmpty = true := by
      by_contra hne
      rw [if_neg hne, hok] at hresult
      cases hresult
    obtain ⟨rfl, rfl, rfl⟩ := cleanupFailures_isEmpty.mp hempty
    exact htied'.restored (by rw [hrecord]; rfl) (by rw [hrecord]; rfl) (by rw [hrecord]; rfl)
  · have hne : (cleanupFailures failedRoutes dnsError failedSnapshots).isEmpty = false := by
      rw [Bool.eq_false_iff]
      intro he
      rw [if_pos he, herr] at hresult
      cases hresult
    rw [hne, if_neg Bool.false_ne_true, herr] at hresult
    cases hresult
    rw [hne] at hrecord
    rw [hrecord]
    constructor
    · exact eq_filter_of_sublist htied.routes.nodup hsub₁ fun r _ => by
        rw [cleanupFailures_isRoute, List.mem_reverse]
    · refine eq_filter_of_sublist htied.settings.nodup.of_map hsub₃ fun s hs => ?_
      rw [cleanupFailures_isInterface]
      constructor
      · intro hex
        obtain ⟨s', hs', heq⟩ := hex
        exact htied.settings.mem_of_luid hsub₃ hs (List.mem_reverse.mpr hs') (congrArg _ heq)
      · exact fun hs' => ⟨s, List.mem_reverse.mp hs', rfl⟩
    · exact cleanupFailures_isDns.symm
    · intro r hr
      rw [htied₃.routes.routes]
      exact or_iff_right (htied.routes.fresh r hr)
    · intro s hs
      split
      · rename_i hkept
        rw [hsame s hkept, honly₂.settings, hr₁.settings]
      · rename_i hgone
        rw [← htied.settings.before s hs]
        refine htied₃.settings.untouched _ fun hm => ?_
        obtain ⟨s', hs', heq⟩ := List.mem_map.mp hm
        exact hgone (htied.settings.mem_of_luid hsub₃ hs hs' heq)
    · rw [hs₃.dns, ← hr₁.dns]
      exact hservers
    · rfl

/-! ## 6. Installation -/

section Install

variable {isPrivateIp : IpAddr → Bool} {args : TproxyArgs}

theorem planBypasses_runs {tunLuid : Luid} {cidrs : List IpCidr} {unique : List (IpAddr × Nat)}
    {result : Except SetupError (List RouteSpec)}
    (h : Runs (NetworkOp.Step reports) (planBypasses tunLuid cidrs unique) w result w') :
    w' = w := by
  induction cidrs generalizing unique result w' with
  | nil => exact (Prog.runs_pure.mp h).2
  | cons cidr cidrs ih =>
    rw [planBypasses] at h
    split at h
    · exact ih h
    split at h
    · exact (Prog.runs_pure.mp h).2
    obtain ⟨best, h⟩ := runs_observes h trivial
    cases best with
    | error e => exact (Prog.runs_pure.mp h).2
    | ok best =>
      dsimp only at h
      split at h
      · exact (Prog.runs_pure.mp h).2
      obtain ⟨planned, t, hplan, h⟩ := Prog.runs_bind.mp h
      obtain rfl := ih hplan
      cases planned <;> exact (Prog.runs_pure.mp h).2

/-- **Planning changes nothing**; its record says so. -/
theorem planTransaction_runs {result : Except SetupError (List RouteSpec × InstallRecord)}
    (h : Runs (NetworkOp.Step reports) (planTransaction isPrivateIp args) w result w') :
    w' = w ∧ ∀ planned record, result = .ok (planned, record) →
      Tied w.os record w ∧ record.removed = false := by
  obtain ⟨luid, h⟩ := runs_observes h trivial
  cases luid with
  | error e =>
    cases h
    exact ⟨rfl, nofun⟩
  | ok tunLuid =>
    rcases runs_snapshotDns h with h | ⟨e, h⟩
    · obtain ⟨bypasses, t, hplan, h⟩ := Prog.runs_bind.mp h
      obtain rfl := planBypasses_runs hplan
      cases bypasses with
      | error e =>
        cases h
        exact ⟨rfl, nofun⟩
      | ok bypasses =>
        dsimp only at h
        split at h
        · cases h
          exact ⟨rfl, nofun⟩
        · cases h
          refine ⟨rfl, fun planned record heq => ?_⟩
          cases heq
          exact ⟨Tied.initial rfl rfl rfl, rfl⟩
    · cases h
      exact ⟨rfl, nofun⟩

/-- The setup may stop anywhere: the record accounts for what was changed until then. -/
theorem applyTransaction_runs {planned : List RouteSpec} {record record' : InstallRecord}
    {result : Except SetupError Unit}
    (h : Runs (NetworkOp.Step reports) (applyTransaction args planned record) w
      (result, record') w') (htied : Tied os₀ record w) :
    Tied os₀ record' w' ∧ record'.removed = record.removed := by
  obtain ⟨⟨reconciled, snapshots⟩, t, hreconcile, h⟩ := Prog.runs_bind.mp h
  have htied₁ : Tied os₀ { record with interfaceSnapshots := snapshots } t := by
    unfold setupInterfaces at hreconcile
    split at hreconcile
    · exact htied.onlySettings (reconcileInterfaceSettings_runs hreconcile htied.settings)
    · cases hreconcile
      exact htied
  cases reconciled with
  | error e =>
    cases h
    exact ⟨htied₁, rfl⟩
  | ok _ =>
    obtain ⟨⟨failed, owned⟩, t₂, hcreate, h⟩ := Prog.runs_bind.mp h
    have htied₂ := htied₁.onlyRoutes record.desiredBypasses
      (createPlanned_runs hcreate htied₁.routes)
    cases failed with
    | some failed =>
      cases h
      exact ⟨htied₂, rfl⟩
    | none =>
      -- the record says that the DNS servers are changed before they are
      have hdns : ∀ w', (∀ luid ≠ record.tunLuid, w'.os.dns luid = t₂.os.dns luid) →
          DnsTied os₀ { record with
            interfaceSnapshots := snapshots, ownedRoutes := owned, dnsChanged := true } w' :=
        fun w' hw' => ⟨fun luid hne => (hw' luid hne).trans (htied₂.dns.others luid hne),
          htied₂.dns.before, nofun⟩
      rcases runs_setDns h with h | ⟨e, h⟩
      · cases h
        exact ⟨htied₂.onlyDns ⟨rfl, rfl⟩
          (hdns _ fun luid hne => Function.update_of_ne hne _ _), rfl⟩
      · cases h
        exact ⟨htied₂.onlyDns ⟨rfl, rfl⟩ (hdns _ fun _ _ => rfl), rfl⟩

theorem rollbackAfterSetupFailure_runs {record record' : InstallRecord} {e : SetupError}
    {failure : SetupFailure} (htied : Tied os₀ record w) (hlive : record.removed = false)
    (h : Runs (NetworkOp.Step reports) (rollbackAfterSetupFailure record e) w
      (failure, record') w') :
    (∃ e, failure = .rolledBack e ∧ w'.os = os₀) ∨
      ∃ e first second, failure = .rollbackFailed e first second := by
  obtain ⟨⟨first, record₁⟩, t, hfirst, h⟩ := Prog.runs_bind.mp h
  obtain ⟨htied₁, hok, herr⟩ := cleanupTransaction_runs htied hlive hfirst
  cases first with
  | ok _ =>
    cases h
    exact .inl ⟨e, rfl, hok rfl⟩
  | error failures =>
    obtain ⟨⟨second, record₂⟩, t₂, hsecond, h⟩ := Prog.runs_bind.mp h
    have hlive₁ : record₁.removed = false := by
      rw [(herr failures rfl).others]
    obtain ⟨-, hok, -⟩ := cleanupTransaction_runs htied₁ hlive₁ hsecond
    cases second with
    | ok _ =>
      cases h
      exact .inl ⟨e, rfl, hok rfl⟩
    | error failures₂ =>
      cases h
      exact .inr ⟨e, failures, failures₂, rfl⟩

end Install

/-! ## 7. Sessions -/

theorem reconcileBypassRoutes_runs {record : InstallRecord}
    (h : Runs (NetworkOp.Step reports) (reconcileBypassRoutes record) w (result, record') w')
    (htied : Tied os₀ record w) : Tied os₀ record' w' ∧ record'.removed = record.removed := by
  obtain ⟨listed, h⟩ := runs_observes h trivial
  cases listed with
  | error e =>
    cases h
    exact ⟨htied, rfl⟩
  | ok routes =>
    obtain ⟨⟨result', desired, owned⟩, t, hloop, h⟩ := Prog.runs_bind.mp h
    cases h
    exact ⟨htied.onlyRoutes desired (reconcileDesired_runs hloop htied.routes), rfl⟩

theorem addUpstreamBypasses_runs {record : InstallRecord} {addresses : List IpAddr}
    {update update' : PreparedBypasses} {result : Except UpdateError Unit}
    (h : Runs (NetworkOp.Step reports) (addUpstreamBypasses record addresses update) w
      (result, record', update') w') (htied : Tied os₀ record w)
    (hadded : ∀ r ∈ update.added, r ∉ os₀.routes) :
    Tied os₀ record' w' ∧ record'.removed = record.removed ∧
      ∀ r ∈ update'.added, r ∉ os₀.routes := by
  unfold addUpstreamBypasses at h
  split at h
  · cases h
    exact ⟨htied, rfl, hadded⟩
  obtain ⟨listed, h⟩ := runs_observes h trivial
  cases listed with
  | error e =>
    cases h
    exact ⟨htied, rfl, hadded⟩
  | ok routes =>
    dsimp only at h
    split at h
    · cases h
      exact ⟨htied, rfl, hadded⟩
    · obtain ⟨⟨result', owned, update''⟩, t, hloop, h⟩ := Prog.runs_bind.mp h
      cases h
      obtain ⟨hr, hadded'⟩ := installUpstream_runs hloop htied.routes hadded
      exact ⟨htied.onlyRoutes record.desiredBypasses hr, rfl, hadded'⟩

section Session

variable (reports) (isPrivateIp : IpAddr → Bool) (args : TproxyArgs) (w₀ : World)

/-- **The records and worlds a session goes through**, with the rows its updates have added.
    Every call may stop halfway. An update goes on from rows added before, and what is rolled back
    are rows an update has added. -/
inductive Session : InstallRecord → List RouteSpec → World → Prop
  | installed {record w}
      (h : Runs (NetworkOp.Step reports) (installTransaction isPrivateIp args) w₀ (.ok record) w) :
      Session record [] w
  -- the record a failed setup rolls back
  | interrupted {planned record₁ w₁ e record w}
      (hplan : Runs (NetworkOp.Step reports) (planTransaction isPrivateIp args) w₀
        (.ok (planned, record₁)) w₁)
      (happly : Runs (NetworkOp.Step reports) (applyTransaction args planned record₁) w₁
        (.error e, record) w) :
      Session record [] w
  | interfaces {record provisional w tunTarget result snapshots w'}
      (hs : Session record provisional w)
      (h : Runs (NetworkOp.Step reports)
        (reconcileInterfaceSettings tunTarget record.interfaceSnapshots) w (result, snapshots) w') :
      Session { record with interfaceSnapshots := snapshots } provisional w'
  | bypasses {record provisional w result record' w'} (hs : Session record provisional w)
      (h : Runs (NetworkOp.Step reports) (reconcileBypassRoutes record) w (result, record') w') :
      Session record' provisional w'
  | added {record provisional w addresses update result record' update' w'}
      (hs : Session record provisional w) (hupdate : update.added ⊆ provisional)
      (h : Runs (NetworkOp.Step reports) (addUpstreamBypasses record addresses update) w
        (result, record', update') w') :
      Session record' (update'.added ++ provisional) w'
  | committed {record provisional w} (update : PreparedBypasses)
      (hs : Session record provisional w) :
      Session (commitUpstreamBypasses record update) provisional w
  | rolledBack {record provisional w routes record' routes' w'}
      (hs : Session record provisional w) (hroutes : routes ⊆ provisional)
      (h : Runs (NetworkOp.Step reports) (rollbackUpstreamBypasses record routes) w
        (record', routes') w') :
      Session record' provisional w'
  | cleanupFailed {record provisional w failures record' w'} (hs : Session record provisional w)
      (h : Runs (NetworkOp.Step reports) (cleanupTransaction record) w
        (.error failures, record') w') :
      Session record' provisional w'

variable {reports isPrivateIp args w₀} {record : InstallRecord} {provisional : List RouteSpec}

/-- The two phases of the setup. -/
theorem setup_tied {planned : List RouteSpec} {record₁ : InstallRecord} {w₁ : World}
    {result : Except SetupError Unit}
    (hplan : Runs (NetworkOp.Step reports) (planTransaction isPrivateIp args) w₀
      (.ok (planned, record₁)) w₁)
    (happly : Runs (NetworkOp.Step reports) (applyTransaction args planned record₁) w₁
      (result, record) w) : Tied w₀.os record w ∧ record.removed = false := by
  obtain ⟨rfl, hplanned⟩ := planTransaction_runs hplan
  obtain ⟨htied, hlive⟩ := hplanned planned record₁ rfl
  obtain ⟨htied', hsame⟩ := applyTransaction_runs happly htied
  exact ⟨htied', hsame.trans hlive⟩

/-- **How a setup ends.** -/
theorem installTransaction_runs {result : Except SetupFailure InstallRecord}
    (h : Runs (NetworkOp.Step reports) (installTransaction isPrivateIp args) w₀ result w) :
    (∃ record, result = .ok record ∧ Tied w₀.os record w ∧ record.removed = false) ∨
      (∃ e, result = .error (.planning e) ∧ w = w₀) ∨
      (∃ e, result = .error (.rolledBack e) ∧ w.os = w₀.os) ∨
      ∃ e first second, result = .error (.rollbackFailed e first second) := by
  obtain ⟨plan, w₁, hplan, h⟩ := Prog.runs_bind.mp h
  cases plan with
  | error e =>
    cases h
    exact .inr (.inl ⟨e, rfl, (planTransaction_runs hplan).1⟩)
  | ok plan =>
    obtain ⟨planned, record₁⟩ := plan
    obtain ⟨⟨applied, record₂⟩, w₂, happly, h⟩ := Prog.runs_bind.mp h
    obtain ⟨htied, hlive⟩ := setup_tied hplan happly
    cases applied with
    | ok _ =>
      cases h
      exact .inl ⟨record₂, rfl, htied, hlive⟩
    | error e =>
      obtain ⟨⟨failure, record₃⟩, w₃, hrollback, h⟩ := Prog.runs_bind.mp h
      cases h
      rcases rollbackAfterSetupFailure_runs htied hlive hrollback with
        ⟨e', rfl, hos⟩ | ⟨e', first, second, rfl⟩
      · exact .inr (.inr (.inl ⟨e', rfl, hos⟩))
      · exact .inr (.inr (.inr ⟨e', first, second, rfl⟩))

/-- **The tie holds throughout a session.** -/
theorem Session.tied (h : Session reports isPrivateIp args w₀ record provisional w) :
    Tied w₀.os record w ∧ record.removed = false ∧ ∀ r ∈ provisional, r ∉ w₀.os.routes := by
  induction h with
  | installed h =>
    rcases installTransaction_runs h with ⟨record, heq, htied, hlive⟩ | ⟨e, heq, -⟩ |
      ⟨e, heq, -⟩ | ⟨e, first, second, heq⟩
    · cases heq
      exact ⟨htied, hlive, nofun⟩
    all_goals cases heq
  | interrupted hplan happly =>
    obtain ⟨htied, hlive⟩ := setup_tied hplan happly
    exact ⟨htied, hlive, nofun⟩
  | interfaces hs h ih =>
    obtain ⟨htied, hlive, hprov⟩ := ih
    have hset := reconcileInterfaceSettings_runs h htied.settings
    exact ⟨htied.onlySettings hset, hlive, hprov⟩
  | bypasses hs h ih =>
    obtain ⟨htied, hlive, hprov⟩ := ih
    obtain ⟨htied', hsame⟩ := reconcileBypassRoutes_runs h htied
    exact ⟨htied', hsame.trans hlive, hprov⟩
  | added hs hupdate h ih =>
    obtain ⟨htied, hlive, hprov⟩ := ih
    obtain ⟨htied', hsame, hadded⟩ :=
      addUpstreamBypasses_runs h htied fun r hr => hprov r (hupdate hr)
    exact ⟨htied', hsame.trans hlive, fun r hr =>
      (List.mem_append.mp hr).elim (hadded r) (hprov r)⟩
  | committed update hs ih =>
    obtain ⟨htied, hlive, hprov⟩ := ih
    exact ⟨htied.onlyRoutes _ htied.routes, hlive, hprov⟩
  | rolledBack hs hroutes h ih =>
    obtain ⟨htied, hlive, hprov⟩ := ih
    obtain ⟨hr, heq⟩ :=
      rollbackUpstreamBypasses_runs h htied.routes fun r hr => hprov r (hroutes hr)
    rw [heq]
    exact ⟨htied.onlyRoutes _ hr, hlive, hprov⟩
  | cleanupFailed hs h ih =>
    obtain ⟨htied, hlive, hprov⟩ := ih
    obtain ⟨htied', -, hkept⟩ := cleanupTransaction_runs htied hlive h
    refine ⟨htied', ?_, hprov⟩
    rw [(hkept _ rfl).others]

variable (reports isPrivateIp args w₀)

/-- **The network setup restores the machine**, whatever calls fail. A setup that fails while it
    plans has made no change and no mutating call; one that fails later and reports no failed
    rollback leaves the system as it was. In a session, the first cleanup that reports success
    leaves the system as it was before the setup, and one that reports failures keeps in the
    record what it could not undo. -/
theorem transaction_restores :
    (∀ e w, Runs (NetworkOp.Step reports) (installTransaction isPrivateIp args) w₀
      (.error (.planning e)) w → w.mutations = w₀.mutations ∧ w.os = w₀.os) ∧
    (∀ e w, Runs (NetworkOp.Step reports) (installTransaction isPrivateIp args) w₀
      (.error (.rolledBack e)) w → w.os = w₀.os) ∧
    ∀ record provisional w, Session reports isPrivateIp args w₀ record provisional w →
      ∀ result record' w',
        Runs (NetworkOp.Step reports) (cleanupTransaction record) w (result, record') w' →
        (result = .ok () → w'.os = w₀.os) ∧
          ∀ failures, result = .error failures → Kept record w failures record' w' := by
  refine ⟨fun e w h => ?_, fun e w h => ?_, fun record provisional w hs result record' w' h => ?_⟩
  · rcases installTransaction_runs h with ⟨record, heq, -⟩ | ⟨e', heq, rfl⟩ | ⟨e', heq, -⟩ |
      ⟨e', first, second, heq⟩
    · cases heq
    · exact ⟨rfl, rfl⟩
    all_goals cases heq
  · rcases installTransaction_runs h with ⟨record, heq, -⟩ | ⟨e', heq, -⟩ | ⟨e', heq, hos⟩ |
      ⟨e', first, second, heq⟩
    · cases heq
    · cases heq
    · exact hos
    · cases heq
  · obtain ⟨htied, hlive, -⟩ := hs.tied
    exact (cleanupTransaction_runs htied hlive h).2

end Session

section Sample

/-- The upstream server found while the session is up. -/
def sampleUpstream : RouteSpec := ⟨.v4 0xC6336401#32, 32, .new (.v4 0xC0A80001#32), 0x77, 1⟩

/-- The row of the upstream server cannot be deleted. -/
def upstreamStuck : NetworkOp → Bool := fun op => decide (op = .deleteRoute sampleUpstream)

/-- The setup, the update, a cleanup that cannot delete the update's row, and one that can. -/
def sampleInstalled : Except SetupFailure InstallRecord × World :=
  (sampleNetwork fun _ => false).run (installTransaction (fun _ => false) sampleArgs)
    (.start sampleOs)

def sampleAdded : (Except UpdateError Unit × InstallRecord × PreparedBypasses) × World :=
  (sampleNetwork fun _ => false).run (addUpstreamBypasses sampleRecord [.v4 0xC6336401#32] {})
    sampleInstalled.2

def sampleFirst : (Except (List Failure) Unit × InstallRecord) × World :=
  (sampleNetwork upstreamStuck).run (cleanupTransaction sampleAdded.1.2.1) sampleAdded.2

def sampleSecond : (Except (List Failure) Unit × InstallRecord) × World :=
  (sampleNetwork fun _ => false).run (cleanupTransaction sampleFirst.1.2) sampleFirst.2

theorem sample_installed : sampleInstalled.1 = .ok sampleRecord := by rfl

theorem sample_added : sampleUpstream ∈ sampleAdded.2.os.routes ∧
    sampleAdded.1.2.1.interfaceSnapshots.length = 2 := by decide +kernel

theorem sample_first : sampleFirst.1.1 = .error [.route sampleUpstream Network.denied] ∧
    sampleFirst.1.2.ownedRoutes = [sampleUpstream] := by decide +kernel

theorem sample_second : sampleSecond.1.1 = .ok () := by decide +kernel

/-- A run on a network whose reports are left open. -/
theorem runs_of_run {α : Type} (net : Network) (p : Net α) (w : World) :
    Runs (NetworkOp.Step fun _ _ => True) p w (net.run p w).1 (net.run p w).2 :=
  Network.run_runs (fun _ => trivial) p w

/-- A setup, an update of which one row cannot be deleted at first, and two cleanups. -/
theorem sample_transaction_restores :
    ∃ record provisional w failures record' w' record'' w'',
      Session (fun _ _ => True) (fun _ => false) sampleArgs (.start sampleOs) record provisional w ∧
      sampleUpstream ∈ w.os.routes ∧ record.interfaceSnapshots.length = 2 ∧
      Runs (NetworkOp.Step fun _ _ => True) (cleanupTransaction record) w
        (.error failures, record') w' ∧
      record'.ownedRoutes = [sampleUpstream] ∧ Kept record w failures record' w' ∧
      Runs (NetworkOp.Step fun _ _ => True) (cleanupTransaction record') w'
        (.ok (), record'') w'' ∧ w''.os = sampleOs := by
  have hinstalled : Session (fun _ _ => True) (fun _ => false) sampleArgs (.start sampleOs)
      sampleRecord [] sampleInstalled.2 := by
    refine .installed ?_
    rw [← sample_installed]
    exact runs_of_run (sampleNetwork fun _ => false) _ (.start sampleOs)
  have hadd : Runs (NetworkOp.Step fun _ _ => True)
      (addUpstreamBypasses sampleRecord [.v4 0xC6336401#32] {}) sampleInstalled.2
      sampleAdded.1 sampleAdded.2 := runs_of_run (sampleNetwork fun _ => false) _ _
  have hadded : Session (fun _ _ => True) (fun _ => false) sampleArgs (.start sampleOs)
      sampleAdded.1.2.1 (sampleAdded.1.2.2.added ++ []) sampleAdded.2 :=
    .added hinstalled (List.nil_subset _) hadd
  have hfirst : Runs (NetworkOp.Step fun _ _ => True) (cleanupTransaction sampleAdded.1.2.1)
      sampleAdded.2 (.error [.route sampleUpstream Network.denied], sampleFirst.1.2)
      sampleFirst.2 := by
    rw [← sample_first.1]
    exact runs_of_run (sampleNetwork upstreamStuck) _ _
  have hsecond : Runs (NetworkOp.Step fun _ _ => True) (cleanupTransaction sampleFirst.1.2)
      sampleFirst.2 (.ok (), sampleSecond.1.2) sampleSecond.2 := by
    rw [← sample_second]
    exact runs_of_run (sampleNetwork fun _ => false) _ _
  have hrestores := (transaction_restores (fun _ _ => True) (fun _ => false) sampleArgs
    (.start sampleOs)).2.2
  refine ⟨_, _, _, _, _, _, _, _, hadded, sample_added.1, sample_added.2, hfirst, sample_first.2,
    ?_, hsecond, ?_⟩
  · exact (hrestores _ _ _ hadded _ _ _ hfirst).2 _ rfl
  · exact (hrestores _ _ _ (.cleanupFailed hadded hfirst) _ _ _ hsecond).1 rfl

end Sample

end Tun2Proxy.Windows
