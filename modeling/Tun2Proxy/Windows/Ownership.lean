/-
  File:      Tun2Proxy/Windows/Ownership.lean
  Subject:   Which rows the session deletes.

  The rows the session owns are rows it created and has not deleted since (`Owns`), and so are the
  rows of a provisional update and those that wait to be rolled back: both are owned as well. Every
  program keeps this, and deletes owned rows only, as long as the bypasses are not refreshed while
  a row waits to be rolled back (`deletes_own_rows`).

  A refresh retires rows through the owned ones alone. A row that waits to be rolled back is then
  deleted twice, and the second time it may be a row of other software (`deletes_foreign_row`).
-/
import Tun2Proxy.Windows.Monitor

namespace Tun2Proxy.Windows

open Prog (Outcome OnlyCalls Safe Setting Stable Triple)
open Relation

variable {reports : Os → List (RouteSpec × Nat) → Prop} {w w' : World}

/-! ## 1. Owned rows -/

/-- What other software does: it adds and removes rows, but never removes a row the session has
    created. -/
structure Foreign (w w' : World) : Prop where
  created : w'.created = w.created
  keeps : ∀ r ∈ w.created, r ∈ w.os.routes → r ∈ w'.os.routes

/-- A call that deletes a row of the table deletes one the session created and has not deleted
    since. -/
def OwnRow (w : World) : NetworkOp → Prop
  | .deleteRoute r => r ∈ w.os.routes → r ∈ w.created
  | _ => True

theorem ownRow_quiet {op : NetworkOp} (h : op.quiet) : OwnRow w op := by
  cases op with
  | deleteRoute r => exact h.elim
  | _ => trivial

/-- The owned rows are the session's, and so are those of a second list of rows to delete. -/
structure Owns (owned doomed : List RouteSpec) (w : World) : Prop where
  nodup : owned.Nodup
  created : ∀ r ∈ owned, r ∈ w.created
  inTable : ∀ r ∈ w.created, r ∈ w.os.routes
  doomed_nodup : doomed.Nodup
  doomed_owned : doomed ⊆ owned

namespace Owns

variable {owned owned' doomed : List RouteSpec} {r : RouteSpec}

theorem stable : Stable (env reports Foreign OwnRow) (Owns owned doomed) := by
  intro w w' ho h
  exact ⟨h.nodup, fun r hr => ho.created ▸ h.created r hr,
    fun r hr => ho.keeps r (ho.created ▸ hr) (h.inTable r (ho.created ▸ hr)),
    h.doomed_nodup, h.doomed_owned⟩

theorem onRows : OnRows (Owns owned doomed) := by
  intro w w' hroutes hcreated h
  exact ⟨h.nodup, hcreated ▸ h.created, by rw [hroutes, hcreated]; exact h.inTable,
    h.doomed_nodup, h.doomed_owned⟩

theorem perm (h : Owns owned doomed w) (hp : owned.Perm owned') : Owns owned' doomed w where
  nodup := hp.nodup_iff.mp h.nodup
  created r hr := h.created r (hp.mem_iff.mpr hr)
  inTable := h.inTable
  doomed_nodup := h.doomed_nodup
  doomed_owned _ hr := hp.mem_iff.mp (h.doomed_owned hr)

theorem permDoomed {doomed' : List RouteSpec} (h : Owns owned doomed w)
    (hp : doomed.Perm doomed') : Owns owned doomed' w where
  nodup := h.nodup
  created := h.created
  inTable := h.inTable
  doomed_nodup := hp.nodup_iff.mp h.doomed_nodup
  doomed_owned _ hr := h.doomed_owned (hp.mem_iff.mpr hr)

/-- Fewer rows to delete. -/
theorem spare {doomed' : List RouteSpec} (h : Owns owned doomed w)
    (hsub : doomed'.Sublist doomed) : Owns owned doomed' w where
  nodup := h.nodup
  created := h.created
  inTable := h.inTable
  doomed_nodup := hsub.nodup h.doomed_nodup
  doomed_owned _ hr := h.doomed_owned (hsub.subset hr)

theorem ownRow (h : Owns owned doomed w) (hr : r ∈ owned) : OwnRow w (.deleteRoute r) :=
  fun _ => h.created r hr

/-- A row that is created is not owned yet. -/
theorem not_mem (h : Owns owned doomed w) (hr : r ∉ w.os.routes) : r ∉ owned :=
  fun hm => hr (h.inTable r (h.created r hm))

theorem create (h : Owns owned doomed w) (hr : r ∉ w.os.routes) :
    Owns (owned ++ [r]) doomed (w.create r) where
  nodup := by grind [h.nodup, h.not_mem hr]
  created := by grind [World.create, h.created]
  inTable := by grind [World.create, h.inTable]
  doomed_nodup := h.doomed_nodup
  doomed_owned x hx := List.mem_append_left _ (h.doomed_owned hx)

/-- The row was created for an update. -/
theorem doom (h : Owns (owned ++ [r]) doomed w) (hr : r ∉ owned) (hsub : doomed ⊆ owned) :
    Owns (owned ++ [r]) (doomed ++ [r]) w where
  nodup := h.nodup
  created := h.created
  inTable := h.inTable
  doomed_nodup := by grind [h.doomed_nodup]
  doomed_owned := by grind

/-- A deleted row is neither owned nor to be deleted again. -/
theorem delete (h : Owns owned (r :: doomed) w) :
    Owns (owned.filter (· != r)) doomed (w.delete r) where
  nodup := h.nodup.filter _
  created := by grind [World.delete, h.created]
  inTable := by grind [World.delete, h.inTable]
  doomed_nodup := (List.nodup_cons.mp h.doomed_nodup).2
  doomed_owned := by grind [h.doomed_nodup, h.doomed_owned]

theorem delete_head (h : Owns (r :: owned) [] w) : Owns owned [] (w.delete r) := by
  have hdoomed : Owns (r :: owned) [r] w :=
    ⟨h.nodup, h.created, h.inTable, List.nodup_singleton r, fun x hx =>
      List.mem_singleton.mp hx ▸ List.mem_cons_self⟩
  have hfilter : (r :: owned).filter (· != r) = owned := by
    rw [← h.nodup.erase_eq_filter, List.erase_cons_head]
  rw [← hfilter]
  exact hdoomed.delete

end Owns

/-! ## 2. The programs -/

section Programs

variable {α : Type} {Q : α → World → Prop}

variable {owned : List RouteSpec}

/-- A program that does not touch the table keeps what is owned. -/
theorem Owns.safe_quiet {doomed : List RouteSpec} {p : Net α} (hp : OnlyCalls NetworkOp.quiet p)
    (h : Owns owned doomed w) :
    Safe (env reports Foreign OwnRow) p (fun a w => Owns owned doomed w ∧ Outcome p a) w :=
  Windows.safe_quiet hp Owns.stable Owns.onRows (fun _ _ hq _ => ownRow_quiet hq) h

variable {record : InstallRecord} {keep : List RouteSpec}

theorem rollbackUpstreamBypasses_owns {routes : List RouteSpec}
    (h : Owns record.ownedRoutes (routes ++ keep) w) :
    Safe (env reports Foreign OwnRow) (rollbackUpstreamBypasses record routes)
      (fun out w => Owns out.1.ownedRoutes (out.2 ++ keep) w) w := by
  induction routes generalizing record keep w with
  | nil => exact safe_pure Owns.stable h
  | cons r routes ih =>
    rw [rollbackUpstreamBypasses]
    refine safe_deleteRoute Owns.stable Owns.onRows
      (fun w h => h.ownRow (h.doomed_owned List.mem_cons_self)) (fun w h => ih h.delete)
      (fun w e h => ?_) h
    -- the row stays, behind the rows still to be tried
    refine (ih (h.permDoomed List.perm_middle.symm)).seq fun out w h => ?_
    exact safe_pure Owns.stable (h.permDoomed List.perm_middle)

variable {planned : List RouteSpec}

theorem installUpstream_owns {update : PreparedBypasses} (h : Owns owned update.added w) :
    Safe (env reports Foreign OwnRow) (installUpstream planned owned update)
      (fun out w => Owns out.2.1 out.2.2.added w) w := by
  induction planned generalizing owned update w with
  | nil => exact safe_pure Owns.stable h
  | cons r planned ih =>
    rw [installUpstream]
    refine safe_createRoute Owns.stable Owns.onRows (fun _ _ => trivial) (fun w h hr => ?_)
      (fun w h _ => ?_) (fun w e h => safe_pure Owns.stable h) h
    · have hn := h.not_mem hr
      dsimp only
      rw [if_pos (by simpa using hn)]
      exact ih ((h.create hr).doom hn h.doomed_owned)
    · dsimp only
      rw [if_neg (by simp)]
      exact ih h

theorem addUpstreamBypasses_owns {addresses : List IpAddr} (h : Owns record.ownedRoutes [] w) :
    Safe (env reports Foreign OwnRow) (addUpstreamBypasses record addresses {})
      (fun out w => Owns out.2.1.ownedRoutes out.2.2.added w) w := by
  unfold addUpstreamBypasses
  split
  · exact safe_pure Owns.stable h
  refine safe_physicalRoutes Owns.stable (fun _ _ => trivial) (fun w rows h _ => ?_)
    (fun w e h => safe_pure Owns.stable h) h
  dsimp only
  split
  · exact safe_pure Owns.stable h
  · refine (installUpstream_owns h).seq fun out w h => ?_
    exact safe_pure Owns.stable h

theorem retireRoutes_owns {tunLuid : Luid} {desired : RouteSpec} (h : Owns (owned ++ keep) [] w) :
    Safe (env reports Foreign OwnRow) (retireRoutes tunLuid desired owned)
      (fun out w => Owns (out.2 ++ keep) [] w) w := by
  induction owned generalizing keep w with
  | nil => exact safe_pure Owns.stable h
  | cons old owned ih =>
    rw [retireRoutes]
    split
    · exact safe_deleteRoute Owns.stable Owns.onRows (fun w h => h.ownRow List.mem_cons_self)
        (fun w h => ih h.delete_head) (fun w e h => safe_pure Owns.stable h) h
    · refine (ih (h.perm List.perm_middle.symm)).seq fun out w h => ?_
      exact safe_pure Owns.stable (h.perm List.perm_middle)

theorem installReplacement_owns {routes : List (RouteSpec × Nat)} {new : RouteSpec}
    (h : Owns owned [] w) :
    Safe (env reports Foreign OwnRow) (installReplacement routes new owned)
      (fun out w => Owns (out.toOption.getD owned) [] w) w := by
  unfold installReplacement
  split
  · exact safe_pure Owns.stable h
  refine safe_createRoute Owns.stable Owns.onRows (fun _ _ => trivial) (fun w h hr => ?_)
    (fun w h _ => ?_) (fun w e h => safe_pure Owns.stable h) h
  · have hn := h.not_mem hr
    dsimp only
    rw [if_pos (by simpa using hn)]
    exact safe_pure Owns.stable (h.create hr)
  · dsimp only
    rw [if_neg (by simp)]
    exact safe_pure Owns.stable h

theorem reconcileDesired_owns {tunLuid : Luid} {routes : List (RouteSpec × Nat)}
    {desired : List RouteSpec} (h : Owns owned [] w) :
    Safe (env reports Foreign OwnRow) (reconcileDesired tunLuid routes desired owned)
      (fun out w => Owns out.2.2 [] w) w := by
  induction desired generalizing owned w with
  | nil => exact safe_pure Owns.stable h
  | cons old rest ih =>
    rw [reconcileDesired]
    split
    · refine (ih h).seq fun out w h => ?_
      exact safe_pure Owns.stable h
    · refine (installReplacement_owns h).seq fun installed w h => ?_
      cases installed with
      | error e => exact safe_pure Owns.stable h
      | ok owned₁ =>
        have h : Owns (owned₁ ++ []) [] w := (List.append_nil owned₁).symm ▸ h
        refine (retireRoutes_owns h).seq fun out w h => ?_
        obtain ⟨retired, owned₂⟩ := out
        rw [List.append_nil] at h
        cases retired with
        | error e => exact safe_pure Owns.stable h
        | ok _ =>
          refine (ih h).seq fun out w h => ?_
          exact safe_pure Owns.stable h

theorem reconcileBypassRoutes_owns (h : Owns record.ownedRoutes [] w) :
    Safe (env reports Foreign OwnRow) (reconcileBypassRoutes record)
      (fun out w => Owns out.2.ownedRoutes [] w) w := by
  refine safe_physicalRoutes Owns.stable (fun _ _ => trivial) (fun w rows h _ => ?_)
    (fun w e h => safe_pure Owns.stable h) h
  refine (reconcileDesired_owns h).seq fun out w h => ?_
  exact safe_pure Owns.stable h

theorem createPlanned_owns (h : Owns owned [] w) :
    Safe (env reports Foreign OwnRow) (createPlanned planned owned)
      (fun out w => Owns out.2 [] w) w := by
  induction planned generalizing owned w with
  | nil => exact safe_pure Owns.stable h
  | cons r planned ih =>
    rw [createPlanned]
    exact safe_createRoute Owns.stable Owns.onRows (fun _ _ => trivial)
      (fun w h hr => ih (h.create hr)) (fun w h _ => ih h)
      (fun w e h => safe_pure Owns.stable h) h

theorem deleteRoutes_owns {rs : List RouteSpec} (h : Owns (rs ++ keep) [] w) :
    Safe (env reports Foreign OwnRow) (deleteRoutes rs)
      (fun failed w => Owns (failed.map Prod.fst ++ keep) [] w) w := by
  induction rs generalizing keep w with
  | nil => exact safe_pure Owns.stable h
  | cons r rs ih =>
    rw [deleteRoutes]
    refine safe_deleteRoute Owns.stable Owns.onRows (fun w h => h.ownRow List.mem_cons_self)
      (fun w h => ih h.delete_head) (fun w e h => ?_) h
    refine (ih (h.perm List.perm_middle.symm)).seq fun failed w h => ?_
    exact safe_pure Owns.stable (h.perm List.perm_middle)

theorem restoreDns_ownedRoutes {record' : InstallRecord} {failures failures' : List Failure}
    (h : Outcome (restoreDns record failures) (failures', record')) :
    record'.ownedRoutes = record.ownedRoutes := by
  unfold restoreDns at h
  split at h
  · obtain ⟨set, h⟩ := Prog.outcome_perform.mp h
    cases set with
    | error | ok =>
      obtain ⟨failures₁, -, h⟩ := Prog.outcome_bind.mp h
      dsimp only at h
      split at h <;> cases h <;> rfl
  · cases h
    rfl

/-- A cleanup deletes each owned row once. -/
theorem cleanupTransaction_owns (h : Owns record.ownedRoutes [] w) :
    Safe (env reports Foreign OwnRow) (cleanupTransaction record)
      (fun out w => Owns out.2.ownedRoutes [] w) w := by
  unfold cleanupTransaction
  split
  · exact safe_pure Owns.stable h
  have hrev : Owns (record.ownedRoutes.reverse ++ []) [] w := by
    rw [List.append_nil]
    exact h.perm (List.reverse_perm _).symm
  refine (deleteRoutes_owns hrev).seq fun failed w h => ?_
  rw [List.append_nil] at h
  have h := h.perm (List.reverse_perm _).symm
  refine (h.safe_quiet (restoreDns_onlyCalls (fun _ _ => trivial) _ _)).seq fun out w hout => ?_
  obtain ⟨failures, record₁⟩ := out
  obtain ⟨h, hrestored⟩ := hout
  have hsame := restoreDns_ownedRoutes hrestored
  refine (h.safe_quiet (restoreInterfaces_quiet _)).seq fun failedSnapshots w hout => ?_
  have h : Owns record₁.ownedRoutes [] w := hsame ▸ hout.1
  dsimp only
  split <;> exact safe_pure Owns.stable h

theorem rollbackAfterSetupFailure_owns {e : SetupError} (h : Owns record.ownedRoutes [] w) :
    Safe (env reports Foreign OwnRow) (rollbackAfterSetupFailure record e) (fun _ _ => True) w := by
  refine (cleanupTransaction_owns h).seq fun out w h => ?_
  obtain ⟨first, record₁⟩ := out
  cases first with
  | ok _ => exact safe_pure (fun _ _ _ _ => trivial) trivial
  | error first =>
    refine (cleanupTransaction_owns h).seq fun out w h => ?_
    obtain ⟨second, record₂⟩ := out
    cases second <;> exact safe_pure (fun _ _ _ _ => trivial) trivial

theorem applyTransaction_owns {args : TproxyArgs} (h : Owns record.ownedRoutes [] w) :
    Safe (env reports Foreign OwnRow) (applyTransaction args planned record)
      (fun out w => Owns out.2.ownedRoutes [] w) w := by
  refine (h.safe_quiet (setupInterfaces_quiet _ _)).seq fun out w hout => ?_
  obtain ⟨reconciled, snapshots⟩ := out
  cases reconciled with
  | error e => exact safe_pure Owns.stable hout.1
  | ok _ =>
    refine (createPlanned_owns hout.1).seq fun out w h => ?_
    obtain ⟨failed, owned⟩ := out
    cases failed with
    | some failed => exact safe_pure Owns.stable h
    | none =>
      refine (h.safe_quiet (setDns_quiet _ _)).seq fun set w hout => ?_
      cases set <;> exact safe_pure Owns.stable hout.1

/-- What is owned in each phase: the rows of a provisional update and those that wait to be rolled
    back are owned as well. -/
def Phase.Owned : Phase → World → Prop
  | .waiting worker => Owns worker.record.ownedRoutes worker.abandoned
  | .refreshing worker => Owns worker.record.ownedRoutes worker.abandoned
  | .stopped record => Owns record.ownedRoutes []
  | .failed => fun _ => True

theorem Phase.Owned.stable {phase : Phase} :
    Stable (env reports Foreign OwnRow) phase.Owned := by
  cases phase with
  | waiting | refreshing | stopped => exact Owns.stable
  | failed => exact fun _ _ _ _ => trivial

theorem setup_owns {isPrivateIp : IpAddr → Bool} {args : TproxyArgs} {os : Os} :
    Safe (env reports Foreign OwnRow) (setup isPrivateIp args) Phase.Owned (.start os) := by
  have hstart : Owns [] [] (.start os) :=
    ⟨List.nodup_nil, nofun, fun r hr => absurd hr (Finset.notMem_empty r),
      List.nodup_nil, List.nil_subset _⟩
  suffices hinstall : Safe (env reports Foreign OwnRow) (installTransaction isPrivateIp args)
      (fun result => (Phase.afterSetup result).Owned) (.start os) from
    hinstall.seq fun _ _ h => safe_pure Phase.Owned.stable h
  refine (hstart.safe_quiet (planTransaction_quiet _ _)).seq fun plan w hout => ?_
  obtain ⟨h, hplan⟩ := hout
  cases plan with
  | error e => exact safe_pure Phase.Owned.stable trivial
  | ok plan =>
    obtain ⟨planned, record⟩ := plan
    have h : Owns record.ownedRoutes [] w := by
      rw [(planTransaction_outcome hplan).1]
      exact h
    refine (applyTransaction_owns h).seq fun out w h => ?_
    obtain ⟨applied, record₁⟩ := out
    cases applied with
    | ok _ => exact safe_pure Phase.Owned.stable h
    | error e =>
      refine (rollbackAfterSetupFailure_owns h).seq fun out w _ => ?_
      exact safe_pure Phase.Owned.stable trivial

end Programs

/-! ## 3. The machine -/

section Machine

variable {args : TproxyArgs} {worker : Worker}

theorem prepareBypasses_owns {addresses : List IpAddr}
    (h : Owns worker.record.ownedRoutes worker.abandoned w) :
    Safe (env reports Foreign OwnRow) (worker.prepareBypasses addresses)
      (fun out w => Owns out.2.record.ownedRoutes out.2.abandoned w) w := by
  refine (rollbackUpstreamBypasses_owns h).seq fun out w h => ?_
  obtain ⟨record, rollbackRoutes⟩ := out
  dsimp only
  split
  · rename_i hempty
    obtain rfl := List.isEmpty_iff.mp hempty
    refine (addUpstreamBypasses_owns (h.spare (List.nil_sublist _))).seq fun out w h => ?_
    exact safe_pure Owns.stable h
  · exact safe_pure Owns.stable h

theorem rollbackBypasses_owns (h : Owns worker.record.ownedRoutes worker.abandoned w) :
    Safe (env reports Foreign OwnRow) worker.rollbackBypasses
      (fun worker w => Owns worker.record.ownedRoutes worker.abandoned w) w := by
  have h : Owns worker.record.ownedRoutes (worker.abandoned ++ []) w := by
    rw [List.append_nil]
    exact h
  refine (rollbackUpstreamBypasses_owns h).seq fun out w h => ?_
  exact safe_pure Owns.stable h

theorem reconcile_owns {tunTarget : InterfaceTarget}
    (h : Owns worker.record.ownedRoutes worker.abandoned w) :
    Safe (env reports Foreign OwnRow) (worker.reconcile tunTarget)
      (fun worker w => Owns worker.record.ownedRoutes worker.abandoned w) w := by
  refine (h.safe_quiet (reconcileInterfaceSettings_quiet _ _)).seq fun out w hout => ?_
  have h : Owns ({ worker.record with interfaceSnapshots := out.2 } : InstallRecord).ownedRoutes
      worker.abandoned w := hout.1
  refine (rollbackUpstreamBypasses_owns h).seq fun out w h => ?_
  exact safe_pure Owns.stable h

/-- The refresh deletes through the owned rows, so nothing else may be due to be deleted. -/
theorem refresh_owns (h : Owns worker.record.ownedRoutes worker.abandoned w)
    (hnothing : NothingToRollBack worker) :
    Safe (env reports Foreign OwnRow) worker.refresh
      (fun worker w => Owns worker.record.ownedRoutes worker.abandoned w) w := by
  unfold Worker.refresh
  split
  · rename_i hpending
    have hnone : worker.abandoned = [] := by
      unfold Worker.abandoned Worker.provisional
      rw [hnothing, Option.isNone_iff_eq_none.mp hpending]
      rfl
    rw [hnone] at h
    refine (reconcileBypassRoutes_owns h).seq fun out w h => ?_
    refine safe_pure Owns.stable ?_
    show Owns out.2.ownedRoutes worker.abandoned w
    rw [hnone]
    exact h
  · exact safe_pure Owns.stable h

theorem commitBypasses_owns (h : Owns worker.record.ownedRoutes worker.abandoned w) :
    Owns worker.commitBypasses.record.ownedRoutes worker.commitBypasses.abandoned w := by
  unfold Worker.commitBypasses
  split
  · refine h.spare ?_
    show (worker.rollbackRoutes ++ []).Sublist (worker.rollbackRoutes ++ worker.provisional)
    exact List.Sublist.append_left (List.nil_sublist _) _
  · exact h

theorem handle_owns (c : Command) (h : Owns worker.record.ownedRoutes worker.abandoned w) :
    Safe (env reports Foreign OwnRow) (worker.handle args c) Phase.Owned w := by
  cases c with
  | prepare addresses isClosed =>
    dsimp only [Worker.handle]
    split
    · exact safe_pure Phase.Owned.stable h
    · exact (prepareBypasses_owns h).seq fun _ _ h => safe_pure Phase.Owned.stable h
  | commit => exact safe_pure Phase.Owned.stable (commitBypasses_owns h)
  | rollback =>
    exact (rollbackBypasses_owns h).seq fun _ _ h => safe_pure Phase.Owned.stable h
  | timeout => exact (reconcile_owns h).seq fun _ _ h => safe_pure Phase.Owned.stable h
  | stop => exact safe_pure Phase.Owned.stable (h.spare (List.nil_sublist _))

/-- Every program of the machine keeps what is owned, and deletes nothing else. -/
theorem next_owns {phase : Phase} {p : Net Phase}
    (h : Monitor args NothingToRollBack phase p ∨ Removal phase p) :
    Triple (env reports Foreign OwnRow) phase.Owned p Phase.Owned := by
  intro w hw
  rcases h with h | h
  · cases h with
    | command worker c => exact handle_owns c hw
    | refresh hnothing =>
      exact (refresh_owns hw hnothing).seq fun _ _ h => safe_pure Phase.Owned.stable h
  · cases h with
    | cleanup record =>
      exact (cleanupTransaction_owns hw).seq fun _ _ h => safe_pure Phase.Owned.stable h

end Machine

/-- **Only rows the session owns are deleted**, in every run of setup, monitor and removal in which
    the bypasses are refreshed only when no row waits to be rolled back: a call that deletes a row
    of the table deletes one the session has created and not deleted since. -/
theorem deletes_own_rows (isPrivateIp : IpAddr → Bool) (args : TproxyArgs)
    (reports : Os → List (RouteSpec × Nat) → Prop) (os : Os) {p : Net Phase} {w : World}
    (hrun : ReflTransGen (Prog.Move (NetworkOp.Step reports) Foreign fun phase p =>
        Monitor args NothingToRollBack phase p ∨ Removal phase p)
      (setup isPrivateIp args, .start os) (p, w))
    {r : RouteSpec} {k : Except OsError Unit → Net Phase} (hp : p = .call (.deleteRoute r) k)
    (hr : r ∈ w.os.routes) : r ∈ w.created := by
  have hsafe : Safe (env reports Foreign OwnRow) p Phase.Owned w :=
    Safe.reach (fun _ _ h => next_owns h) setup_owns hrun
  subst hp
  exact hsafe.allowed hr

section Sample

theorem foreign_addRow (w : World) (r : RouteSpec) : Foreign w (w.addRow r) :=
  ⟨rfl, fun _ _ hx => Finset.mem_insert_of_mem hx⟩

/-- The rollback of the prepared update deletes its row, which the session has created. -/
theorem sample_deletes_own_rows : sampleBypass 0x88 ∈ samplePrepared.2.os.routes ∧
    sampleBypass 0x88 ∈ samplePrepared.2.created := by
  have habandoned : samplePrepared.1.2.abandoned = [sampleBypass 0x88] := by decide +kernel
  have hmem : sampleBypass 0x88 ∈ samplePrepared.2.os.routes := by decide +kernel
  obtain ⟨k, hk⟩ := rollback_deletes sampleArgs habandoned
  refine ⟨hmem, deletes_own_rows (fun _ => false) sampleArgs (fun _ _ => True) sampleOs ?_ hk hmem⟩
  refine (sampleSetup_reach fun _ _ => trivial).trans ?_
  refine (samplePrepared_reach (fun _ _ => trivial) foreign_addRow fun _ _ h => .inl h).trans ?_
  exact .single (.start (.inl (.command _ .rollback)))

/-- The physical route has moved to interface 0x99 before the refresh. -/
def sampleRefreshed : Worker × World :=
  (sampleNetwork fun _ => false).run sampleReconciled.1.refresh
    (sampleReconciled.2.addRow (sampleDefault 0x99))

theorem sampleRefreshed_forgets :
    sampleRefreshed.1.rollbackRoutes = [sampleBypass 0x88] ∧
      sampleBypass 0x88 ∉ sampleRefreshed.2.created := by decide +kernel

/-- **A row of other software is deleted.** The bypass over interface 0x88 was created by an update
    and could not be rolled back. The refresh has retired it through the owned rows, and it still
    waits to be rolled back: when other software adds the same row, the next preparation deletes
    it. -/
theorem deletes_foreign_row :
    ∃ w k, ReflTransGen (Prog.Move (NetworkOp.Step fun _ _ => True) Foreign fun phase p =>
        Monitor sampleArgs (fun _ => True) phase p ∨ Removal phase p)
      (setup (fun _ => false) sampleArgs, .start sampleOs)
      (.call (.deleteRoute (sampleBypass 0x88)) k, w) ∧
      sampleBypass 0x88 ∈ w.os.routes ∧ sampleBypass 0x88 ∉ w.created := by
  obtain ⟨k, hk⟩ := prepare_deletes sampleArgs sampleRefreshed_forgets.1 [.v4 0xCB007101#32]
  refine ⟨sampleRefreshed.2.addRow (sampleBypass 0x88), k, ?_, Finset.mem_insert_self _ _,
    sampleRefreshed_forgets.2⟩
  rw [← hk]
  refine (sampleSetup_reach fun _ _ => trivial).trans ?_
  refine (samplePrepared_reach (fun _ _ => trivial) foreign_addRow fun _ _ h => .inl h).trans ?_
  refine (sampleReconciled_reach (fun _ _ => trivial) fun _ _ h => .inl h).trans ?_
  refine .head (.others (foreign_addRow _ (sampleDefault 0x99))) ?_
  refine (reach_run (sampleNetwork fun _ => false) (fun _ => trivial)
    (.inl (.refresh trivial))).trans ?_
  refine .head (.others (foreign_addRow _ (sampleBypass 0x88))) ?_
  exact .single (.start (.inl (.command _ _)))

end Sample

end Tun2Proxy.Windows
