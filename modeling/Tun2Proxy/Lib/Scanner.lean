/-
  File:      Tun2Proxy/Lib/Scanner.lean
  Subject:   Scanners: loops that read their input one item at a time until an item ends them.

  `run next s input` is the loop from the state `s`. It ends with a result and the number of items
  it took, or it runs out of input in some state, from which a later call resumes. A scan that
  ended is not changed by more input (`run_found_append`), and a scan that is resumed goes on as
  if its input had never been cut (`run_more_append`).
-/
import Mathlib.Data.List.Basic

namespace Scanner

variable {σ α ρ : Type} {next : σ → α → σ ⊕ ρ}

/-- Left: the state in which the input ran out. Right: the result, and how many items were read. -/
def run (next : σ → α → σ ⊕ ρ) : σ → List α → σ ⊕ ρ × Nat
  | s, [] => .inl s
  | s, a :: rest =>
    match next s a with
    | .inr r => .inr (r, 1)
    | .inl s' =>
      match run next s' rest with
      | .inl t => .inl t
      | .inr (r, n) => .inr (r, n + 1)

/-- A result found `k` items further on. -/
def shift (k : Nat) : σ ⊕ ρ × Nat → σ ⊕ ρ × Nat
  | .inl t => .inl t
  | .inr (r, n) => .inr (r, k + n)

theorem run_cons_more {s s' : σ} {a : α} {rest : List α} (h : next s a = .inl s') :
    run next s (a :: rest) = shift 1 (run next s' rest) := by
  rw [run, h]
  dsimp only
  cases run next s' rest with
  | inl t => rfl
  | inr p => exact congrArg (fun n => Sum.inr (p.1, n)) (Nat.add_comm p.2 1)

theorem run_cons_found {s : σ} {a : α} {rest : List α} {r : ρ} (h : next s a = .inr r) :
    run next s (a :: rest) = .inr (r, 1) := by
  rw [run, h]

theorem shift_shift (k l : Nat) (o : σ ⊕ ρ × Nat) : shift k (shift l o) = shift (k + l) o := by
  cases o with
  | inl t => rfl
  | inr p => exact congrArg (fun n => Sum.inr (p.1, n)) (Nat.add_assoc k l p.2).symm

theorem shift_eq_inl {k : Nat} {o : σ ⊕ ρ × Nat} {t : σ} : shift k o = .inl t ↔ o = .inl t := by
  cases o with
  | inl t' => exact Iff.rfl
  | inr p => exact ⟨nofun, nofun⟩

theorem shift_eq_inr {k m : Nat} {o : σ ⊕ ρ × Nat} {r : ρ} (h : shift k o = .inr (r, m)) :
    ∃ n, o = .inr (r, n) ∧ m = k + n := by
  cases o with
  | inl t => cases h
  | inr p =>
    cases h
    exact ⟨p.2, rfl, rfl⟩

/-- **A scan that ran out of input is resumed where it stopped.** -/
theorem run_more_append {s t : σ} {x : List α} (h : run next s x = .inl t) (y : List α) :
    run next s (x ++ y) = shift x.length (run next t y) := by
  induction x generalizing s with
  | nil =>
    cases h
    cases hy : run next t y with
    | inl u => exact hy
    | inr p =>
      rw [List.nil_append, hy]
      exact congrArg (fun n => Sum.inr (p.1, n)) (Nat.zero_add p.2).symm
  | cons a x ih =>
    cases hn : next s a with
    | inr r =>
      rw [run_cons_found hn] at h
      cases h
    | inl s' =>
      rw [run_cons_more hn, shift_eq_inl] at h
      rw [List.cons_append, run_cons_more hn, ih h, shift_shift, List.length_cons,
        Nat.add_comm]

/-- **A scan that ended is not changed by more input.** -/
theorem run_found_append {s : σ} {x : List α} {r : ρ} {n : Nat} (h : run next s x = .inr (r, n))
    (y : List α) : run next s (x ++ y) = .inr (r, n) := by
  induction x generalizing s n with
  | nil => cases h
  | cons a x ih =>
    cases hn : next s a with
    | inr r' =>
      rw [run_cons_found hn] at h
      rw [List.cons_append, run_cons_found hn, h]
    | inl s' =>
      rw [run_cons_more hn] at h
      obtain ⟨m, hm, rfl⟩ := shift_eq_inr h
      rw [List.cons_append, run_cons_more hn, ih hm]
      rfl

/-- A scan reads no more than its input. -/
theorem run_found_le {s : σ} {x : List α} {r : ρ} {n : Nat} (h : run next s x = .inr (r, n)) :
    n ≤ x.length := by
  induction x generalizing s n with
  | nil => cases h
  | cons a x ih =>
    cases hn : next s a with
    | inr r' =>
      rw [run_cons_found hn] at h
      cases h
      exact Nat.le_add_left 1 x.length
    | inl s' =>
      rw [run_cons_more hn] at h
      obtain ⟨m, hm, rfl⟩ := shift_eq_inr h
      have := ih hm
      rw [List.length_cons]
      omega

/-- **Invariant rule.** What the state says about the items read so far holds when a result is
    found: the last item found it. -/
theorem run_found_invariant {Inv : List α → σ → Prop}
    (hstep : ∀ u s a s', Inv u s → next s a = .inl s' → Inv (u ++ [a]) s') {s : σ} {u x : List α}
    (h0 : Inv u s) {r : ρ} {n : Nat} (h : run next s x = .inr (r, n)) :
    ∃ v t a, u ++ x.take n = v ++ [a] ∧ Inv v t ∧ next t a = .inr r := by
  induction x generalizing s u n with
  | nil => cases h
  | cons a x ih =>
    cases hn : next s a with
    | inr r' =>
      rw [run_cons_found hn] at h
      cases h
      exact ⟨u, s, a, rfl, h0, hn⟩
    | inl s' =>
      rw [run_cons_more hn] at h
      obtain ⟨m, hm, rfl⟩ := shift_eq_inr h
      obtain ⟨v, t, b, hv, ht, hb⟩ := ih (hstep u s a s' h0 hn) hm
      refine ⟨v, t, b, ?_, ht, hb⟩
      rw [← hv, Nat.add_comm 1 m, List.take_succ_cons, List.append_assoc]
      rfl

end Scanner
