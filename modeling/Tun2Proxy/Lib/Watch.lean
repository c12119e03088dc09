/-
  File:      Tun2Proxy/Lib/Watch.lean
  Subject:   A value that is replaced in one step and announced in another.

  Readers remember the version they have seen and look at the value again when there is a newer
  one. `Knows w seen P` is what such a reader has of the value: `P` holds of it, unless there is
  an announcement that the reader has not seen or that is still to be made.
-/
import Mathlib.Init

/-- The value, the number of announcements, and the replacements that are not announced yet. -/
structure Watch (α : Type) where
  value : α
  version : Nat
  unannounced : Nat

namespace Watch

variable {α : Type} {w : Watch α} {seen : Nat} {P : α → Prop}

def replace (w : Watch α) (a : α) : Watch α :=
  { w with value := a, unannounced := w.unannounced + 1 }

def announce (w : Watch α) : Watch α :=
  { w with version := w.version + 1, unannounced := w.unannounced - 1 }

/-- **What a reader knows** that has seen this version. -/
structure Knows (w : Watch α) (seen : Nat) (P : α → Prop) : Prop where
  seen_le : seen ≤ w.version
  holds : seen = w.version → w.unannounced = 0 → P w.value

/-- Knowing nothing but the version. -/
theorem Knows.nothing (h : seen ≤ w.version) : w.Knows seen fun _ => True := ⟨h, fun _ _ => trivial⟩

/-- The reader looks at the value. -/
theorem Knows.read {Q : α → Prop} (h : w.Knows seen Q) (hP : P w.value) : w.Knows seen P :=
  ⟨h.seen_le, fun _ _ => hP⟩

theorem Knows.replace (h : w.Knows seen P) (a : α) : (w.replace a).Knows seen P :=
  ⟨h.seen_le, fun _ hnone => absurd hnone (Nat.succ_ne_zero _)⟩

theorem Knows.announce (h : w.Knows seen P) : w.announce.Knows seen P := by
  have hlt : seen < w.version + 1 := Nat.lt_succ_of_le h.seen_le
  exact ⟨Nat.le_of_lt hlt, fun hseen => absurd hseen (Nat.ne_of_lt hlt)⟩

end Watch
