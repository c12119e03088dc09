/-
  File:      Tun2Proxy/Windows/InterfaceFlags.lean
  Subject:   Which interface flags a cleanup writes, when others change them too.

  While a session runs, interfaces come and go and other software sets their flags between two
  ticks (`Ticks`). The session should give each flag back the value it had right before the session
  first tried to change it (`FlagsReturned`). What it gives back is the value it read when it first
  saw the interface: the snapshot of an interface is taken then, and a flag that is changed later
  is recorded with the value of the snapshot. So the flags return exactly when nobody changed them
  between the two (`flags_returned_iff`).
-/
import Tun2Proxy.Windows.Restore

namespace Tun2Proxy.Windows

open Prog (Traced OnlyCalls)

/-! ## 1. Flags -/

inductive Flag where
  | forwarding
  | weakHostSend
  | weakHostReceive
  deriving DecidableEq, Repr

def Flags.get {α : Type} (self : Flags α) : Flag → α
  | .forwarding => self.forwarding
  | .weakHostSend => self.weakHostSend
  | .weakHostReceive => self.weakHostReceive

theorem Flags.get_ext {α : Type} {a b : Flags α} (h : ∀ flag, a.get flag = b.get flag) : a = b :=
  Flags.ext (h .forwarding) (h .weakHostSend) (h .weakHostReceive)

namespace InterfacePatch

theorem get_apply (patch : InterfacePatch) (v : InterfaceSettings) (flag : Flag) :
    (patch.apply v).get flag = (patch.get flag).getD (v.get flag) := by
  cases flag <;> rfl

theorem get_mergeOwned (self patch : InterfacePatch) (before : InterfaceSettings) (flag : Flag) :
    (self.mergeOwned patch before).get flag =
      mergeFlag (self.get flag) (patch.get flag) (before.get flag) := by
  cases flag <;> rfl

theorem isEmpty_iff {patch : InterfacePatch} :
    patch.isEmpty = true ↔ ∀ flag, patch.get flag = none := by
  unfold isEmpty
  simp only [Bool.and_eq_true, Option.isNone_iff_eq_none]
  constructor
  · rintro ⟨⟨h1, h2⟩, h3⟩ flag
    cases flag <;> assumption
  · exact fun h => ⟨⟨h .forwarding, h .weakHostSend⟩, h .weakHostReceive⟩

end InterfacePatch

/-- A flag that has to be set is not set. -/
theorem requiredInterfacePatch_get {role : InterfaceRole} {current : InterfaceSettings}
    {flag : Flag} (h : ((requiredInterfacePatch role current).get flag).isSome = true) :
    current.get flag = false := by
  cases hv : current.get flag with
  | false => rfl
  | true =>
    have hnone : (requiredInterfacePatch role current).get flag = none := by
      cases role <;> cases flag <;>
        simp_all [requiredInterfacePatch, Flags.get, requireFlag, InterfacePatch.empty]
    rw [hnone] at h
    cases h

/-! ## 2. What the calls say -/

/-- A call of the network operations. -/
abbrev NetCall := Prog.Call World NetworkOp NetworkOp.Result

namespace NetCall

/-- The call tries to change the flag of the interface. -/
def tries (luid : Luid) (flag : Flag) (c : NetCall) : Bool :=
  match c.op with
  | .applyInterfacePatch l patch => l == luid && (patch.get flag).isSome
  | _ => false

/-- The flags the call read off the interface. -/
def reading (luid : Luid) : NetCall → Option InterfaceSettings
  | ⟨_, .interfaceSettings l, .ok v⟩ => if l = luid then some v else none
  | _ => none

/-- The patch the call applies, and the interface. -/
def patch (c : NetCall) : Option (Luid × InterfacePatch) :=
  match c.op with
  | .applyInterfacePatch luid patch => some (luid, patch)
  | _ => none

end NetCall

/-- The session has tried to change the flag. -/
def tried (log : List NetCall) (luid : Luid) (flag : Flag) : Bool := log.any (·.tries luid flag)

/-- What the session read when it first saw the interface. -/
def firstReading (log : List NetCall) (luid : Luid) : Option InterfaceSettings :=
  log.findSome? (·.reading luid)

/-- **The value of the flag right before the session first tried to change it.** -/
def valueBefore (log : List NetCall) (luid : Luid) (flag : Flag) : Option Bool :=
  (log.find? (·.tries luid flag)).bind fun c =>
    (c.state.os.settings luid).map (·.get flag)

/-- The patches that were applied, with their interfaces. -/
def patchesOf (log : List NetCall) : List (Luid × InterfacePatch) := log.filterMap (·.patch)

/-! ## 3. Sessions among others -/

/-- The ticks of a session so far: their calls, the snapshots they leave, and the world. Between two
    ticks anything may happen to the world. -/
inductive Ticks (reports : Os → List (RouteSpec × Nat) → Prop) (tunTarget : InterfaceTarget) :
    List NetCall → List InterfaceSnapshot → World → Prop
  | start (w : World) : Ticks reports tunTarget [] [] w
  | others {log : List NetCall} {snapshots : List InterfaceSnapshot} {w : World}
      (h : Ticks reports tunTarget log snapshots w) (w' : World) :
      Ticks reports tunTarget log snapshots w'
  | tick {log log' : List NetCall} {snapshots snapshots' : List InterfaceSnapshot} {w w' : World}
      {result : Except ReconcileError Unit} (h : Ticks reports tunTarget log snapshots w)
      (run : Traced (NetworkOp.Step reports) (reconcileInterfaceSettings tunTarget snapshots) w log'
        (result, snapshots') w') : Ticks reports tunTarget (log ++ log') snapshots' w'

/-- **The flags return to what they were.** The cleanup applies one patch to each interface with a
    flag the session tried to change; the patch holds these flags alone, each with the value it had
    right before the first try. The interfaces that exist have these values afterwards, and nothing
    else is touched. -/
structure FlagsReturned (history : List NetCall) (w : World) (cleanup : List NetCall) (w' : World) :
    Prop where
  writes : ∀ luid patch, (luid, patch) ∈ patchesOf cleanup ↔
    patch.isEmpty = false ∧ ∀ flag, patch.get flag = valueBefore history luid flag
  once : ((patchesOf cleanup).map Prod.fst).Nodup
  settings : ∀ luid v, w.os.settings luid = some v → ∃ v', w'.os.settings luid = some v' ∧
    ∀ flag, v'.get flag = (valueBefore history luid flag).getD (v.get flag)
  gone : ∀ luid, w.os.settings luid = none → w'.os.settings luid = none

/-! ## 4. The snapshots account for the calls -/

variable {reports : Os → List (RouteSpec × Nat) → Prop}

/-- There is a snapshot of every interface that was read or changed. It holds the first reading, and
    restores the flags that were tried to that reading. -/
structure Accounts (log : List NetCall) (snapshots : List InterfaceSnapshot) : Prop where
  nodup : (snapshots.map (·.target.luid)).Nodup
  before : ∀ s ∈ snapshots, firstReading log s.target.luid = some s.before
  restore : ∀ s ∈ snapshots, ∀ flag, s.restore.get flag =
    if tried log s.target.luid flag then some (s.before.get flag) else none
  seen : ∀ luid, luid ∉ snapshots.map (·.target.luid) →
    firstReading log luid = none ∧ ∀ flag, tried log luid flag = false
  unset : ∀ luid flag, tried log luid flag = true → valueBefore log luid flag = some false

section Log

variable {log log' : List NetCall} {c : NetCall} {luid : Luid} {flag : Flag}

theorem tried_snoc : tried (log ++ [c]) luid flag = (tried log luid flag || c.tries luid flag) := by
  simp [tried]

theorem tried_snoc_of_not (h : ∀ luid flag, c.tries luid flag = false) (luid : Luid)
    (flag : Flag) : tried (log ++ [c]) luid flag = tried log luid flag := by
  rw [tried_snoc, h, Bool.or_false]

theorem firstReading_snoc :
    firstReading (log ++ [c]) luid = (firstReading log luid).or (c.reading luid) := by
  unfold firstReading
  rw [List.findSome?_append, List.findSome?_singleton]

theorem valueBefore_append_of_tried (h : tried log luid flag = true) :
    valueBefore (log ++ log') luid flag = valueBefore log luid flag := by
  obtain ⟨c, hc⟩ := Option.isSome_iff_exists.mp (List.find?_isSome.mpr (List.any_eq_true.mp h))
  unfold valueBefore
  rw [List.find?_append, hc]
  rfl

theorem valueBefore_append_of_not_tried (h : tried log luid flag = false) :
    valueBefore (log ++ log') luid flag = valueBefore log' luid flag := by
  have hnone : log.find? (·.tries luid flag) = none := by
    exact List.find?_eq_none.mpr fun c hc htries =>
      Bool.eq_false_iff.mp h (List.any_eq_true.mpr ⟨c, hc, htries⟩)
  unfold valueBefore
  rw [List.find?_append, hnone]
  rfl

theorem valueBefore_of_not_tried (h : tried log luid flag = false) :
    valueBefore log luid flag = none := by
  rw [← List.append_nil log, valueBefore_append_of_not_tried h]
  rfl

/-- What was tried is the interface of a patch. -/
theorem mem_patchesOf_of_tried (h : tried log luid flag = true) :
    luid ∈ (patchesOf log).map Prod.fst := by
  obtain ⟨c, hc, htries⟩ := List.any_eq_true.mp h
  unfold NetCall.tries at htries
  split at htries
  · rename_i l patch hop
    refine List.mem_map.mpr ⟨(l, patch), List.mem_filterMap.mpr ⟨c, hc, ?_⟩, ?_⟩
    · unfold NetCall.patch
      rw [hop]
    · exact eq_of_beq (Bool.and_eq_true_iff.mp htries).1
  · cases htries

theorem patchesOf_append : patchesOf (log ++ log') = patchesOf log ++ patchesOf log' :=
  List.filterMap_append

end Log

namespace Accounts

variable {log : List NetCall} {snapshots : List InterfaceSnapshot} {c : NetCall}

theorem nil : Accounts [] [] where
  nodup := List.nodup_nil
  before _ hs := nomatch hs
  restore _ hs := nomatch hs
  seen _ _ := ⟨rfl, fun _ => rfl⟩
  unset _ _ h := nomatch h

/-- A flag that is tried for the first time is off. -/
theorem unset_snoc (h : Accounts log snapshots)
    (hoff : ∀ luid flag, c.tries luid flag = true →
      (c.state.os.settings luid).map (·.get flag) = some false)
    (luid : Luid) (flag : Flag) (ht : tried (log ++ [c]) luid flag = true) :
    valueBefore (log ++ [c]) luid flag = some false := by
  by_cases hbefore : tried log luid flag = true
  · rw [valueBefore_append_of_tried hbefore]
    exact h.unset luid flag hbefore
  · have hbefore := Bool.eq_false_iff.mpr hbefore
    rw [tried_snoc, hbefore, Bool.false_or] at ht
    rw [valueBefore_append_of_not_tried hbefore, valueBefore, List.find?_cons_of_pos ht]
    exact hoff luid flag ht

/-- A call that neither reads nor changes flags. -/
theorem quiet (h : Accounts log snapshots) (hreading : ∀ luid, c.reading luid = none)
    (htries : ∀ luid flag, c.tries luid flag = false) : Accounts (log ++ [c]) snapshots := by
  have hfirst : ∀ luid, firstReading (log ++ [c]) luid = firstReading log luid := by
    simp [firstReading_snoc, hreading]
  have htried := @tried_snoc_of_not log c htries
  exact ⟨h.nodup, by simpa only [hfirst] using h.before, by simpa only [htried] using h.restore,
    by simpa only [hfirst, htried] using h.seen, h.unset_snoc (by simp [htries])⟩

/-- A reading: an interface seen for the first time gets its snapshot. -/
theorem read (h : Accounts log snapshots) (target : InterfaceTarget) (v : InterfaceSettings)
    (hreading : ∀ luid, c.reading luid = if target.luid = luid then some v else none)
    (htries : ∀ luid flag, c.tries luid flag = false) :
    Accounts (log ++ [c]) (addSnapshot target v snapshots) ∧
      target.luid ∈ (addSnapshot target v snapshots).map (·.target.luid) := by
  have hbefore : ∀ s ∈ snapshots, firstReading (log ++ [c]) s.target.luid = some s.before := by
    intro s hs
    rw [firstReading_snoc, h.before s hs]
    rfl
  have htried := @tried_snoc_of_not log c htries
  have hunset := @unset_snoc log snapshots c h (by simp [htries])
  have hseen : ∀ luid, luid ∉ snapshots.map (·.target.luid) → target.luid ≠ luid →
      firstReading (log ++ [c]) luid = none ∧ ∀ flag, tried (log ++ [c]) luid flag = false := by
    intro luid hn hne
    obtain ⟨hnone, hnot⟩ := h.seen luid hn
    refine ⟨?_, fun flag => (htried luid flag).trans (hnot flag)⟩
    rw [firstReading_snoc, hnone, hreading, if_neg hne]
    rfl
  rcases addSnapshot_cases target v snapshots with ⟨hmem, heq⟩ | ⟨hn, heq⟩
  · rw [heq]
    exact ⟨⟨h.nodup, hbefore, by simpa only [htried] using h.restore,
      fun luid hn => hseen luid hn fun e => hn (e ▸ hmem), hunset⟩, hmem⟩
  · rw [heq]
    refine ⟨⟨nodup_snapshots h.nodup hn, fun s hs => ?_, fun s hs flag => ?_, fun luid hn' => ?_,
      hunset⟩, by simp⟩
    · rcases List.mem_append.mp hs with hs | hs
      · exact hbefore s hs
      · rw [List.mem_singleton.mp hs, firstReading_snoc, (h.seen _ hn).1, hreading, if_pos rfl]
        rfl
    · rw [htried]
      rcases List.mem_append.mp hs with hs | hs
      · exact h.restore s hs flag
      · rw [List.mem_singleton.mp hs, (h.seen _ hn).2 flag, if_neg Bool.false_ne_true]
        cases flag <;> rfl
    · rw [List.map_append, List.mem_append, not_or] at hn'
      exact hseen luid hn'.1 fun e => hn'.2 (List.mem_singleton.mpr e.symm)

/-- A patch: the flags it changes are recorded, whether it is applied or fails. -/
theorem patch (h : Accounts log snapshots) {luid : Luid} {patch : InterfacePatch}
    (hmem : luid ∈ snapshots.map (·.target.luid)) (hreading : ∀ l, c.reading l = none)
    (htries : ∀ l flag, c.tries l flag = (luid == l && (patch.get flag).isSome))
    (hoff : ∀ flag, (patch.get flag).isSome = true →
      (c.state.os.settings luid).map (·.get flag) = some false) :
    Accounts (log ++ [c]) (recordPatch luid patch snapshots) := by
  have hfirst : ∀ l, firstReading (log ++ [c]) l = firstReading log l := by
    simp [firstReading_snoc, hreading]
  rw [recordPatch_eq_map h.nodup]
  have hmap := map_record_luid luid patch snapshots
  refine ⟨hmap ▸ h.nodup, fun s' hs' => ?_, fun s' hs' flag => ?_, fun l hn => ?_, h.unset_snoc ?_⟩
  · obtain ⟨s, hs, rfl⟩ := List.mem_map.mp hs'
    rw [s.record_target, s.record_before, hfirst]
    exact h.before s hs
  · obtain ⟨s, hs, rfl⟩ := List.mem_map.mp hs'
    have hrestore := h.restore s hs flag
    rw [s.record_target, s.record_before, tried_snoc, htries]
    unfold InterfaceSnapshot.record
    by_cases heq : s.target.luid = luid
    · rw [if_pos heq, InterfacePatch.get_mergeOwned, hrestore, heq]
      -- tried before or not, and in the patch or not
      cases tried log luid flag <;> cases hp : patch.get flag <;>
        simp [InterfacePatch.mergeFlag]
    · have hne : (luid == s.target.luid) = false := beq_eq_false_iff_ne.mpr (Ne.symm heq)
      rw [if_neg heq, hrestore, hne, Bool.false_and, Bool.or_false]
  · rw [hmap] at hn
    obtain ⟨hnone, hnot⟩ := h.seen l hn
    have hne : (luid == l) = false := beq_eq_false_iff_ne.mpr fun e => hn (e ▸ hmem)
    refine ⟨(hfirst l).trans hnone, fun flag => ?_⟩
    rw [tried_snoc, htries, hnot, hne]
    rfl
  · intro l flag ht
    rw [htries, Bool.and_eq_true, beq_iff_eq] at ht
    obtain ⟨rfl, hsome⟩ := ht
    exact hoff flag hsome

end Accounts

/-! ## 5. Ticks -/

variable {snapshots : List InterfaceSnapshot} {log : List NetCall}

theorem reconcileTargets_accounts {targets : List InterfaceTarget} {unique : List Luid}
    {snapshots' : List InterfaceSnapshot} {result : Except ReconcileError Unit}
    {log' : List NetCall} {w w' : World}
    (h : Traced (NetworkOp.Step reports) (reconcileTargets targets unique snapshots) w log'
      (result, snapshots') w') (hacc : Accounts log snapshots) :
    Accounts (log ++ log') snapshots' := by
  induction targets generalizing w unique snapshots log log' with
  | nil =>
    cases h
    rwa [List.append_nil]
  | cons target targets ih =>
    rw [reconcileTargets] at h
    split at h
    · exact ih h hacc
    obtain ⟨read, t, rest, hstep, h, rfl⟩ := Prog.traced_perform h
    rw [List.append_cons]
    cases hstep with
    | @interfaceSettingsFails _ e _ =>
      have hacc := hacc.quiet (c := ⟨w, .interfaceSettings target.luid, .error e⟩)
        (fun _ => rfl) (fun _ _ => rfl)
      dsimp only at h
      split at h
      · exact ih h hacc
      · cases h
        rwa [List.append_nil]
    | interfaceSettings hv =>
      obtain ⟨hacc, hmem⟩ := hacc.read (c := ⟨w, .interfaceSettings target.luid, .ok _⟩)
        target _ (fun _ => rfl) (fun _ _ => rfl)
      dsimp only at h
      split at h
      · exact ih h hacc
      obtain ⟨applied, t, rest, -, hrest, rfl⟩ := Prog.traced_perform h
      rw [List.append_cons]
      have hacc := hacc.patch (c := ⟨w, .applyInterfacePatch target.luid _, applied⟩) hmem
        (fun _ => rfl) (fun _ _ => rfl) (fun flag hsome => by
          rw [hv, Option.map_some, requiredInterfacePatch_get hsome])
      cases applied with
      | error e =>
        cases hrest
        rwa [List.append_nil]
      | ok _ => exact ih hrest hacc

/-- **The snapshots account for every call of the session.** -/
theorem Ticks.accounts {tunTarget : InterfaceTarget} {w : World}
    (h : Ticks reports tunTarget log snapshots w) : Accounts log snapshots := by
  induction h with
  | start w => exact .nil
  | others _ _ ih => exact ih
  | @tick _ _ _ _ w _ _ _ run ih =>
    obtain ⟨listed, t, rest, hstep, h, rfl⟩ := Prog.traced_perform run
    rw [List.append_cons]
    have hacc := ih.quiet (c := ⟨w, .wslHnsInterfaces, listed⟩) (fun _ => rfl) (fun _ _ => rfl)
    cases listed with
    | error e =>
      cases h
      rwa [List.append_nil]
    | ok targets => exact reconcileTargets_accounts h hacc

/-! ## 6. Cleanup -/

/-- The call changes no flags. -/
def NetworkOp.keepsFlags : NetworkOp → Prop
  | .applyInterfacePatch _ _ => False
  | _ => True

theorem NetworkOp.Step.keepsFlags {w w' : World} {op : NetworkOp} {r : op.Result}
    (h : NetworkOp.Step reports w op r w') (hop : op.keepsFlags) :
    w'.os.settings = w.os.settings := by
  cases h with
  | patchedNothing | patched | patchFails => exact hop.elim
  | _ => rfl

/-- A program that calls nothing that changes flags. -/
theorem keepsFlags_traced {α : Type} {p : Net α} {a : α} {w w' : World}
    (hp : OnlyCalls NetworkOp.keepsFlags p) (h : Traced (NetworkOp.Step reports) p w log a w') :
    w'.os.settings = w.os.settings ∧ patchesOf log = [] := by
  obtain ⟨hsame, hops⟩ :=
    hp.traced (fun w : World => w.os.settings) (fun _ _ _ _ hop hs => hs.keepsFlags hop) h
  refine ⟨hsame, List.filterMap_eq_nil_iff.mpr fun c hc => ?_⟩
  have hop := hops c hc
  unfold NetCall.patch
  split
  · rename_i heq
    rw [heq] at hop
    exact hop.elim
  · rfl

theorem deleteRoutes_keepsFlags (routes : List RouteSpec) :
    OnlyCalls NetworkOp.keepsFlags (deleteRoutes routes) := by
  induction routes with
  | nil => exact .pure _
  | cons route routes ih =>
    refine .perform trivial fun deleted => ?_
    cases deleted with
    | error e => exact .bind ih fun _ => .pure _
    | ok _ => exact ih

theorem restoreDns_snapshots {record record' : InstallRecord} {failures failures' : List Failure}
    {w w' : World}
    (h : Traced (NetworkOp.Step reports) (restoreDns record failures) w log (failures', record')
      w') : record'.interfaceSnapshots = record.interfaceSnapshots := by
  -- The servers are set or not, and then the flag of the record is cleared or not.
  have hend : ∀ {failures₁ : List Failure} {t : World} {rest : List NetCall},
      Traced (NetworkOp.Step reports)
        (if failures₁.getLast?.any Failure.isDns then pure (failures₁, record)
          else pure (failures₁, { record with dnsChanged := false })) t rest
        (failures', record') w' → record'.interfaceSnapshots = record.interfaceSnapshots := by
    intro failures₁ t rest h
    split at h <;> cases h <;> rfl
  unfold restoreDns at h
  split at h
  · obtain ⟨set, t, rest, -, h, -⟩ := Prog.traced_perform h
    cases set with
    | error | ok => exact hend h
  · cases h
    rfl

/-- What restoring does to the flags of an interface. -/
structure Undone (ss : List InterfaceSnapshot) (w w' : World) : Prop where
  restored : ∀ s ∈ ss,
    w'.os.settings s.target.luid = (w.os.settings s.target.luid).map s.restore.apply
  untouched : ∀ luid, luid ∉ ss.map (·.target.luid) → w'.os.settings luid = w.os.settings luid

theorem Undone.cons {s : InterfaceSnapshot} {ss : List InterfaceSnapshot} {w t w' : World}
    (hs : s.target.luid ∉ ss.map (·.target.luid))
    (hhead : t.os.settings s.target.luid = (w.os.settings s.target.luid).map s.restore.apply)
    (hother : ∀ luid, luid ≠ s.target.luid → t.os.settings luid = w.os.settings luid)
    (h : Undone ss t w') : Undone (s :: ss) w w' := by
  refine ⟨fun x hx => ?_, fun luid hn => ?_⟩
  · rcases List.mem_cons.mp hx with rfl | hx
    · rw [h.untouched _ hs, hhead]
    · have hne : x.target.luid ≠ s.target.luid := fun e => hs (List.mem_map.mpr ⟨x, hx, e⟩)
      rw [h.restored x hx, hother _ hne]
  · rw [List.map_cons, List.mem_cons, not_or] at hn
    rw [h.untouched luid hn.2, hother luid hn.1]

/-- The snapshots that restore something. -/
def owing (ss : List InterfaceSnapshot) : List InterfaceSnapshot :=
  ss.filter fun s => !s.restore.isEmpty

/-- **Restoring without a failure** applies the patch of every snapshot that has one. -/
theorem restoreInterfaces_traced {ss : List InterfaceSnapshot} {w w' : World}
    (h : Traced (NetworkOp.Step reports) (restoreInterfaces ss) w log [] w')
    (hn : (ss.map (·.target.luid)).Nodup) :
    patchesOf log = (owing ss).map (fun s => (s.target.luid, s.restore)) ∧ Undone ss w w' := by
  induction ss generalizing w log with
  | nil =>
    cases h
    exact ⟨rfl, ⟨nofun, fun _ _ => rfl⟩⟩
  | cons s ss ih =>
    obtain ⟨hs, hn⟩ := List.nodup_cons.mp hn
    rw [restoreInterfaces] at h
    split at h
    · rename_i hempty
      obtain ⟨hlog, hundone⟩ := ih h hn
      refine ⟨?_, .cons hs ?_ (fun _ _ => rfl) hundone⟩
      · rw [hlog, owing, owing, List.filter_cons_of_neg (by simp [hempty])]
      · cases w.os.settings s.target.luid with
        | none => rfl
        | some v => rw [Option.map_some, apply_of_isEmpty hempty]
    · rename_i hne
      have howing : owing (s :: ss) = s :: owing ss := List.filter_cons_of_pos (by simp [hne])
      obtain ⟨applied, t, rest, hstep, h, rfl⟩ := Prog.traced_perform h
      have hpatches :
          patchesOf (⟨w, .applyInterfacePatch s.target.luid s.restore, applied⟩ :: rest) =
            (s.target.luid, s.restore) :: patchesOf rest := rfl
      rw [hpatches, howing, List.map_cons]
      cases hstep with
      | patchedNothing he => exact absurd he hne
      | patched hv =>
        obtain ⟨hlog, hundone⟩ := ih h hn
        refine ⟨by rw [hlog], .cons hs ?_ (fun luid hl => Function.update_of_ne hl _ _) hundone⟩
        rw [hv]
        exact Function.update_self _ _ _
      | patchFails hmissing =>
        dsimp only at h
        split at h
        · -- the interface is gone, and stays so
          rename_i hgone
          obtain ⟨hlog, hundone⟩ := ih h hn
          refine ⟨by rw [hlog], @Undone.cons s ss w w.attempt w' hs ?_ (fun _ _ => rfl) hundone⟩
          have hnone := hmissing (Bool.and_eq_true_iff.mp hgone).1
          show w.os.settings _ = _
          rw [hnone]
          rfl
        · -- a failure is reported
          obtain ⟨failed, t, log₁, log₂, -, h, -⟩ := Prog.traced_bind h
          cases h

/-- **A cleanup that succeeds** applies the patch of every snapshot that has one, the last snapshot
    first. -/
theorem cleanupTransaction_traced {record record' : InstallRecord} {w w' : World}
    (hlive : record.removed = false) (hn : (record.interfaceSnapshots.map (·.target.luid)).Nodup)
    (h : Traced (NetworkOp.Step reports) (cleanupTransaction record) w log (.ok (), record') w') :
    patchesOf log =
        (owing record.interfaceSnapshots.reverse).map (fun s => (s.target.luid, s.restore)) ∧
      Undone record.interfaceSnapshots.reverse w w' := by
  unfold cleanupTransaction at h
  rw [if_neg (Bool.eq_false_iff.mp hlive)] at h
  obtain ⟨failedRoutes, t₁, log₁, rest₁, hroutes, h₁, rfl⟩ := Prog.traced_bind h
  obtain ⟨⟨failures, record₁⟩, t₂, log₂, rest₂, hdns, h₂, rfl⟩ := Prog.traced_bind h₁
  obtain ⟨failedSnapshots, t₃, log₃, rest₃, hrestore, h₃, rfl⟩ := Prog.traced_bind h₂
  obtain ⟨hsame₁, hquiet₁⟩ := keepsFlags_traced (deleteRoutes_keepsFlags _) hroutes
  obtain ⟨hsame₂, hquiet₂⟩ := keepsFlags_traced (restoreDns_onlyCalls (fun _ _ => trivial) _ _) hdns
  have hsnapshots := restoreDns_snapshots hdns
  dsimp only at h₃
  split at h₃
  · rename_i hempty
    cases h₃
    rw [List.isEmpty_iff, List.append_eq_nil_iff, List.map_eq_nil_iff] at hempty
    obtain ⟨-, rfl⟩ := hempty
    rw [hsnapshots] at hrestore
    have hnrev : (record.interfaceSnapshots.reverse.map (·.target.luid)).Nodup := by
      rw [List.map_reverse, List.nodup_reverse]
      exact hn
    obtain ⟨hlog, hundone⟩ := restoreInterfaces_traced hrestore hnrev
    have hsame : t₂.os.settings = w.os.settings := hsame₂.trans hsame₁
    refine ⟨?_, hsame ▸ hundone.restored, hsame ▸ hundone.untouched⟩
    rw [patchesOf_append, patchesOf_append, patchesOf_append, hquiet₁, hquiet₂, hlog]
    exact List.append_nil _
  · cases h₃

/-! ## 7. The result -/

/-- The value of a flag the cleanup gives back. -/
def returned (log : List NetCall) (luid : Luid) (flag : Flag) : Option Bool :=
  if tried log luid flag then (firstReading log luid).map (·.get flag) else none

theorem Accounts.restore_get (h : Accounts log snapshots) {s : InterfaceSnapshot}
    (hs : s ∈ snapshots) (flag : Flag) : s.restore.get flag = returned log s.target.luid flag := by
  rw [h.restore s hs flag, returned, h.before s hs]
  rfl

theorem Accounts.returned_none (h : Accounts log snapshots) {luid : Luid}
    (hn : luid ∉ snapshots.map (·.target.luid)) (flag : Flag) : returned log luid flag = none := by
  rw [returned, (h.seen luid hn).2 flag, if_neg Bool.false_ne_true]

section Cleanup

variable {history cleanup : List NetCall} {snapshots : List InterfaceSnapshot} {w w' : World}

/-- The patches of the cleanup hold the flags that were tried, with the first reading. -/
theorem Accounts.mem_patchesOf (h : Accounts history snapshots)
    (hpatches : patchesOf cleanup =
      (owing snapshots.reverse).map fun s => (s.target.luid, s.restore))
    (luid : Luid) (patch : InterfacePatch) :
    (luid, patch) ∈ patchesOf cleanup ↔
      patch.isEmpty = false ∧ ∀ flag, patch.get flag = returned history luid flag := by
  rw [hpatches, List.mem_map]
  constructor
  · rintro ⟨s, hs, heq⟩
    cases heq
    obtain ⟨hmem, hne⟩ := List.mem_filter.mp hs
    exact ⟨Bool.not_eq_true' _ ▸ hne, h.restore_get (List.mem_reverse.mp hmem)⟩
  · rintro ⟨hne, hget⟩
    -- a patch with a flag in it is one of an interface there is a snapshot of
    have hmem : luid ∈ snapshots.map (·.target.luid) := by
      by_contra hn
      refine Bool.eq_false_iff.mp hne (InterfacePatch.isEmpty_iff.mpr fun flag => ?_)
      rw [hget flag, h.returned_none hn]
    obtain ⟨s, hs, rfl⟩ := List.mem_map.mp hmem
    have heq : s.restore = patch :=
      Flags.get_ext fun flag => (h.restore_get hs flag).trans (hget flag).symm
    refine ⟨s, List.mem_filter.mpr ⟨List.mem_reverse.mpr hs, ?_⟩, by rw [heq]⟩
    rw [heq, hne]
    rfl

theorem Accounts.once (h : Accounts history snapshots)
    (hpatches : patchesOf cleanup =
      (owing snapshots.reverse).map fun s => (s.target.luid, s.restore)) :
    ((patchesOf cleanup).map Prod.fst).Nodup := by
  rw [hpatches, List.map_map]
  have hsub : ((owing snapshots.reverse).map (·.target.luid)).Sublist
      (snapshots.reverse.map (·.target.luid)) := List.filter_sublist.map _
  refine hsub.nodup ?_
  rw [List.map_reverse, List.nodup_reverse]
  exact h.nodup

/-- The flags of an interface after the cleanup. -/
theorem Accounts.settings (h : Accounts history snapshots)
    (hundone : Undone snapshots.reverse w w') (luid : Luid) :
    (w.os.settings luid = none → w'.os.settings luid = none) ∧
    ∀ v, w.os.settings luid = some v → ∃ v', w'.os.settings luid = some v' ∧
      ∀ flag, v'.get flag = (returned history luid flag).getD (v.get flag) := by
  by_cases hmem : luid ∈ snapshots.map (·.target.luid)
  · obtain ⟨s, hs, rfl⟩ := List.mem_map.mp hmem
    rw [hundone.restored s (List.mem_reverse.mpr hs)]
    refine ⟨fun hnone => by rw [hnone]; rfl, fun v hv => ?_⟩
    refine ⟨s.restore.apply v, by rw [hv]; rfl, fun flag => ?_⟩
    rw [InterfacePatch.get_apply, h.restore_get hs]
  · have hn : luid ∉ snapshots.reverse.map (·.target.luid) := by
      rw [List.map_reverse, List.mem_reverse]
      exact hmem
    rw [hundone.untouched luid hn]
    refine ⟨id, fun v hv => ⟨v, hv, fun flag => ?_⟩⟩
    rw [h.returned_none hmem]
    rfl

end Cleanup

section Result

variable {tunTarget : InterfaceTarget} {history cleanup : List NetCall} {w w' : World}
  {record record' : InstallRecord}

/-- **A cleanup gives back the first reading of every flag the session tried to change**, and
    touches nothing else. -/
theorem cleanup_returns (h : Ticks reports tunTarget history record.interfaceSnapshots w)
    (hlive : record.removed = false)
    (hrun : Traced (NetworkOp.Step reports) (cleanupTransaction record) w cleanup (.ok (), record')
      w') :
    (∀ luid patch, (luid, patch) ∈ patchesOf cleanup ↔
      patch.isEmpty = false ∧ ∀ flag, patch.get flag = returned history luid flag) ∧
    ((patchesOf cleanup).map Prod.fst).Nodup ∧
    ∀ luid, (w.os.settings luid = none → w'.os.settings luid = none) ∧
      ∀ v, w.os.settings luid = some v → ∃ v', w'.os.settings luid = some v' ∧
        ∀ flag, v'.get flag = (returned history luid flag).getD (v.get flag) := by
  have hacc := h.accounts
  obtain ⟨hpatches, hundone⟩ := cleanupTransaction_traced hlive hacc.nodup hrun
  exact ⟨hacc.mem_patchesOf hpatches, hacc.once hpatches, hacc.settings hundone⟩

/-- **The flags return to what they were exactly when each flag the session tried had, right before
    the first try, the value the session read when it first saw the interface.** The cleanup patches
    the interfaces that are gone as well, so these count too. A flag is changed only when it is
    off. -/
theorem flags_returned_iff (h : Ticks reports tunTarget history record.interfaceSnapshots w)
    (hlive : record.removed = false)
    (hrun : Traced (NetworkOp.Step reports) (cleanupTransaction record) w cleanup (.ok (), record')
      w') :
    (FlagsReturned history w cleanup w' ↔
      ∀ luid flag, tried history luid flag = true →
        (firstReading history luid).map (·.get flag) = valueBefore history luid flag) ∧
    ∀ luid flag, tried history luid flag = true → valueBefore history luid flag = some false := by
  obtain ⟨hwrites, honce, hsettings⟩ := cleanup_returns h hlive hrun
  have hacc := h.accounts
  refine ⟨?_, hacc.unset⟩
  constructor
  · intro hret luid flag ht
    have hmem : luid ∈ record.interfaceSnapshots.map (·.target.luid) := by
      by_contra hn
      rw [(hacc.seen luid hn).2 flag] at ht
      cases ht
    obtain ⟨s, hs, rfl⟩ := List.mem_map.mp hmem
    have hne : s.restore.isEmpty = false := by
      refine Bool.eq_false_iff.mpr fun hempty => ?_
      have hnone := InterfacePatch.isEmpty_iff.mp hempty flag
      rw [hacc.restore s hs, if_pos ht] at hnone
      cases hnone
    have hwritten := (hwrites s.target.luid s.restore).mpr ⟨hne, hacc.restore_get hs⟩
    rw [← ((hret.writes _ _).mp hwritten).2 flag, hacc.restore_get hs, returned, if_pos ht]
  · intro hsame
    have hval : ∀ luid flag, returned history luid flag = valueBefore history luid flag := by
      intro luid flag
      unfold returned
      by_cases ht : tried history luid flag = true
      · rw [if_pos ht, hsame luid flag ht]
      · rw [if_neg ht, valueBefore_of_not_tried (Bool.eq_false_iff.mpr ht)]
    exact ⟨by simpa only [← hval] using hwrites, honce,
      by simpa only [← hval] using fun luid => (hsettings luid).2, fun luid => (hsettings luid).1⟩

end Result

/-! ## 8. A flag that was on when it was seen -/

section Sample

/-- A TUN with its flags off, and a virtual switch with forwarding on or off. -/
def flagsStart (forwarding : Bool) : World :=
  .start { sampleOs with
    settings := fun luid =>
      if luid = 1 then some ⟨false, false, false⟩
      else if luid = 2 then some ⟨forwarding, false, false⟩
      else none }

def flagsNetwork : Network := sampleNetwork fun _ => false

def flagsTun : InterfaceTarget := sampleArgs.tunTarget 1

/-- One tick on the network. -/
def flagsTick (snapshots : List InterfaceSnapshot) (w : World) :
    (Except ReconcileError Unit × List InterfaceSnapshot) × World :=
  (reconcileInterfaceSettings flagsTun snapshots).exec flagsNetwork.answer w

def flagsFirst (forwarding : Bool) :
    (Except ReconcileError Unit × List InterfaceSnapshot) × World :=
  flagsTick [] (flagsStart forwarding)

/-- Other software turns forwarding off on the virtual switch. -/
def flagsBetween (forwarding : Bool) : World :=
  { (flagsFirst forwarding).2 with
    os := { (flagsFirst forwarding).2.os with
      settings := Function.update (flagsFirst forwarding).2.os.settings 2
        (some ⟨false, false, false⟩) } }

def flagsSecond (forwarding : Bool) :
    (Except ReconcileError Unit × List InterfaceSnapshot) × World :=
  flagsTick (flagsFirst forwarding).1.2 (flagsBetween forwarding)

/-- The calls of the two ticks. -/
def flagsHistory (forwarding : Bool) : List NetCall :=
  (reconcileInterfaceSettings flagsTun []).calls flagsNetwork.answer (flagsStart forwarding) ++
    (reconcileInterfaceSettings flagsTun (flagsFirst forwarding).1.2).calls flagsNetwork.answer
      (flagsBetween forwarding)

/-- The record of a session that has created no row yet. -/
def flagsRecord (forwarding : Bool) : InstallRecord :=
  { sampleRecord with
    dnsChanged := false
    ownedRoutes := []
    interfaceSnapshots := (flagsSecond forwarding).1.2 }

def flagsCleanup (forwarding : Bool) : List NetCall :=
  (cleanupTransaction (flagsRecord forwarding)).calls flagsNetwork.answer (flagsSecond forwarding).2

def flagsEnd (forwarding : Bool) : (Except (List Failure) Unit × InstallRecord) × World :=
  (cleanupTransaction (flagsRecord forwarding)).exec flagsNetwork.answer (flagsSecond forwarding).2

theorem flags_ticks (forwarding : Bool) :
    Ticks (fun _ _ => True) flagsTun (flagsHistory forwarding)
      (flagsRecord forwarding).interfaceSnapshots (flagsSecond forwarding).2 :=
  .tick (.others (.tick (.start (flagsStart forwarding))
    (Traced.exec (Network.answer_step fun _ => trivial) _ _)) (flagsBetween forwarding))
    (Traced.exec (Network.answer_step fun _ => trivial) _ _)

/-- The cleanup succeeds. -/
theorem flags_cleanup (forwarding : Bool) :
    Traced (NetworkOp.Step fun _ _ => True) (cleanupTransaction (flagsRecord forwarding))
      (flagsSecond forwarding).2 (flagsCleanup forwarding)
      (.ok (), (flagsEnd forwarding).1.2) (flagsEnd forwarding).2 := by
  have hok : (flagsEnd forwarding).1.1 = .ok () := by
    cases forwarding <;> decide +kernel
  have heq : (flagsEnd forwarding).1 = (.ok (), (flagsEnd forwarding).1.2) := Prod.ext hok rfl
  have hrun : Traced (NetworkOp.Step fun _ _ => True) (cleanupTransaction (flagsRecord forwarding))
      (flagsSecond forwarding).2 (flagsCleanup forwarding) (flagsEnd forwarding).1
      (flagsEnd forwarding).2 := Traced.exec (Network.answer_step fun _ => trivial) _ _
  rw [heq] at hrun
  exact hrun

/-- **Forwarding was on when the interface was seen, and off when the session turned it on. The
    cleanup leaves it on.** -/
theorem stale_flag_returned :
    Ticks (fun _ _ => True) flagsTun (flagsHistory true) (flagsRecord true).interfaceSnapshots
      (flagsSecond true).2 ∧
    Traced (NetworkOp.Step fun _ _ => True) (cleanupTransaction (flagsRecord true))
      (flagsSecond true).2 (flagsCleanup true) (.ok (), (flagsEnd true).1.2) (flagsEnd true).2 ∧
    valueBefore (flagsHistory true) 2 .forwarding = some false ∧
    ((flagsEnd true).2.os.settings 2).map (·.get .forwarding) = some true ∧
    ¬ FlagsReturned (flagsHistory true) (flagsSecond true).2 (flagsCleanup true)
      (flagsEnd true).2 := by
  have hbefore : valueBefore (flagsHistory true) 2 .forwarding = some false := by decide +kernel
  have hend : ((flagsEnd true).2.os.settings 2).map (·.get .forwarding) = some true := by
    decide +kernel
  refine ⟨flags_ticks true, flags_cleanup true, hbefore, hend, fun h => ?_⟩
  have hthere : ((flagsSecond true).2.os.settings 2).isSome = true := by decide +kernel
  obtain ⟨v, hv⟩ := Option.isSome_iff_exists.mp hthere
  obtain ⟨v', hv', hflags⟩ := h.settings 2 v hv
  have hoff : v'.get .forwarding = false := by
    rw [hflags .forwarding, hbefore]
    rfl
  rw [hv', Option.map_some, hoff] at hend
  cases hend

/-- Forwarding was off when the interface was seen: the cleanup turns it off again. -/
theorem sample_flags_returned :
    FlagsReturned (flagsHistory false) (flagsSecond false).2 (flagsCleanup false)
      (flagsEnd false).2 := by
  refine (flags_returned_iff (flags_ticks false) rfl (flags_cleanup false)).1.mpr ?_
  intro luid flag ht
  have hpatched : (patchesOf (flagsHistory false)).map Prod.fst = [1, 2, 2] := by decide +kernel
  have hmem := mem_patchesOf_of_tried ht
  rw [hpatched] at hmem
  simp only [List.mem_cons, List.not_mem_nil, or_false, or_self] at hmem
  rcases hmem with rfl | rfl
  · cases flag <;> decide +kernel
  · cases flag with
    | forwarding => decide +kernel
    | weakHostSend => exact absurd ht (by decide +kernel)
    | weakHostReceive => exact absurd ht (by decide +kernel)

end Sample

end Tun2Proxy.Windows
