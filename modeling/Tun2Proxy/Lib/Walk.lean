/-
  File:      Tun2Proxy/Lib/Walk.lean
  Subject:   Walks along a relation.

  `Walk r a passed z` goes from `a` to `z` along `r` and names what it passes on the way: `a` first,
  `z` last and not among them. Its length is the number of steps.
-/
import Mathlib.Data.List.Basic

namespace Tun2Proxy

variable {α : Type*} {r : α → α → Prop}

inductive Walk (r : α → α → Prop) : α → List α → α → Prop
  | here (a : α) : Walk r a [] a
  | step {a b z : α} {passed : List α} (first : r a b) (walk : Walk r b passed z) :
      Walk r a (a :: passed) z

namespace Walk

theorem snoc {a z next : α} {passed : List α} (walk : Walk r a passed z) (last : r z next) :
    Walk r a (passed ++ [z]) next := by
  induction walk with
  | here a => exact .step last (.here next)
  | step first _ ih => exact .step first (ih last)

/-- What a step keeps holds at the end of the walk. -/
theorem invariant {P : α → Prop} (hstep : ∀ a b, P a → r a b → P b) {a z : α} {passed : List α}
    (walk : Walk r a passed z) (ha : P a) : P z := by
  induction walk with
  | here a => exact ha
  | step first _ ih => exact ih (hstep _ _ ha first)

theorem start_mem {a z : α} {passed : List α} (walk : Walk r a passed z) : a ∈ passed ∨ a = z := by
  cases walk with
  | here => exact .inr rfl
  | step => exact .inl List.mem_cons_self

/-- From everything it passes the walk goes on, to something it passes or to its end. -/
theorem next_of_mem {a z e : α} {passed : List α} (walk : Walk r a passed z) (he : e ∈ passed) :
    ∃ next, r e next ∧ (next ∈ passed ∨ next = z) := by
  induction walk with
  | here => cases he
  | step first walk ih =>
    cases he with
    | head =>
      refine ⟨_, first, ?_⟩
      exact walk.start_mem.imp_left (List.mem_cons_of_mem _)
    | tail _ he =>
      obtain ⟨next, hnext, hmem⟩ := ih he
      exact ⟨next, hnext, hmem.imp_left (List.mem_cons_of_mem _)⟩

/-- A walk that ends where `P` holds has a first place where it does. -/
theorem exists_first (P : α → Prop) {a z : α} {passed : List α} (walk : Walk r a passed z)
    (hz : P z) :
    ∃ before first, Walk r a before first ∧ P first ∧ (∀ e ∈ before, ¬ P e) ∧
      before.length ≤ passed.length ∧ first ∈ passed ++ [z] ∧
      ((∀ e ∈ passed, ¬ P e) → first = z) := by
  induction walk with
  | here a =>
    exact ⟨[], a, .here a, hz, by simp, Nat.le_refl _, by simp, fun _ => rfl⟩
  | @step a b z passed first walk ih =>
    by_cases ha : P a
    · refine ⟨[], a, .here a, ha, by simp, Nat.zero_le _, by simp, fun hnone => ?_⟩
      exact absurd ha (hnone a List.mem_cons_self)
    · obtain ⟨before, found, hwalk, hfound, hbefore, hlen, hmem, hend⟩ := ih hz
      refine ⟨a :: before, found, .step first hwalk, hfound, ?_, Nat.succ_le_succ hlen,
        List.mem_cons_of_mem _ hmem, fun hnone => ?_⟩
      · intro e he
        cases he with
        | head => exact ha
        | tail _ he => exact hbefore e he
      · exact hend fun e he => hnone e (List.mem_cons_of_mem _ he)

end Walk

end Tun2Proxy
