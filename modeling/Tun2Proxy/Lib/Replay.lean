/-
  File:      Tun2Proxy/Lib/Replay.lean
  Subject:   One-to-one tables and the logs that produce them.

  A table is a partial function in which every value has at most one key. `assign t a b` binds
  `a` to `b`: the old value of `a` is gone, and so is the binding of any other key to `b`.
  `replay` runs a log of assignments from the empty table. The results a journal needs are that
  a log grows by its last assignment (`replay_concat`), and that a log with different keys and
  different values is its own table (`replay_eq_some_of_nodup`), whatever its order.
-/
import Mathlib.Data.List.Basic
import Mathlib.Data.List.Nodup
import Mathlib.Data.List.Induction

namespace Replay

variable {α β : Type*} [DecidableEq α] [DecidableEq β]

/-- Binding `a` to `b` in a one-to-one table. -/
def assign (t : α → Option β) (a : α) (b : β) : α → Option β :=
  fun x => if x = a then some b else if t x = some b then none else t x

/-- The table a log of assignments leaves. -/
def replay (log : List (α × β)) : α → Option β :=
  log.foldl (fun t e => assign t e.1 e.2) fun _ => none

theorem replay_concat (log : List (α × β)) (a : α) (b : β) :
    replay (log ++ [(a, b)]) = assign (replay log) a b := by
  unfold replay
  rw [List.foldl_append]
  rfl

/-- Binding to a value that no key has leaves every other key alone. -/
theorem assign_of_fresh {t : α → Option β} {b : β} (h : ∀ x, t x ≠ some b) (a : α) :
    assign t a b = fun x => if x = a then some b else t x := by
  funext x
  unfold assign
  rw [if_neg (h x)]

/-- A replayed table binds only what its log assigns. -/
theorem mem_of_replay {log : List (α × β)} {a : α} {b : β} (h : replay log a = some b) :
    (a, b) ∈ log := by
  induction log using List.reverseRecOn generalizing a b with
  | nil => cases h
  | append_singleton log e ih =>
    obtain ⟨a', b'⟩ := e
    rw [replay_concat] at h
    unfold assign at h
    split at h
    · rename_i ha
      cases h
      subst ha
      exact List.mem_append_right _ (List.mem_singleton_self _)
    · split at h
      · cases h
      · exact List.mem_append_left _ (ih h)

/-- **A log with different keys and different values is its own table.** -/
theorem replay_eq_some_of_nodup {log : List (α × β)} (hk : (log.map Prod.fst).Nodup)
    (hv : (log.map Prod.snd).Nodup) (a : α) (b : β) :
    replay log a = some b ↔ (a, b) ∈ log := by
  induction log using List.reverseRecOn generalizing a b with
  | nil => simp [replay]
  | append_singleton log e ih =>
    obtain ⟨a', b'⟩ := e
    rw [List.map_append, List.nodup_append] at hk hv
    obtain ⟨hk, -, hkd⟩ := hk
    obtain ⟨hv, -, hvd⟩ := hv
    have ih := ih hk hv
    -- the value of the last assignment is new, so it takes nothing away
    have hfresh : ∀ x, replay log x ≠ some b' := fun x hx =>
      hvd b' (List.mem_map_of_mem ((ih x b').mp hx)) b' (by simp) rfl
    rw [replay_concat, assign_of_fresh hfresh]
    by_cases h : a = a'
    · subst h
      have hnot : (a, b) ∉ log := fun hm => hkd a (List.mem_map_of_mem hm) a (by simp) rfl
      simp [hnot, eq_comm]
    · simp [h, ih]

end Replay
