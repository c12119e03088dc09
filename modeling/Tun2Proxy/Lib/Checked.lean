/-
  File:      Tun2Proxy/Lib/Checked.lean
  Subject:   Unsigned machine arithmetic that stops at an overflow.

  `none` is where a build with overflow checks panics and one without them wraps. A checked
  operation answers with exactly the number the integers have (`add_eq_some`, `sub_eq_some`),
  and what it answers is what the wrapping operation computes (`add_of_lt`, `sub_of_le`).
-/
import Mathlib.Algebra.Group.Nat.Defs

namespace Checked

variable {w : Nat} {a b r : BitVec w}

/-! ## 1. Words -/

def add (a b : BitVec w) : Option (BitVec w) := if a.uaddOverflow b then none else some (a + b)

def sub (a b : BitVec w) : Option (BitVec w) := if a.usubOverflow b then none else some (a - b)

/-- **A sum that is answered is the sum of the numbers**, and every sum that fits is. -/
theorem add_eq_some : add a b = some r ↔ r.toNat = a.toNat + b.toNat := by
  unfold add
  by_cases h : a.toNat + b.toNat < 2 ^ w
  · have hfits : a.uaddOverflow b = false := decide_eq_false (Nat.not_le.mpr h)
    have hsum : (a + b).toNat = a.toNat + b.toNat := BitVec.toNat_add_of_lt h
    rw [hfits, if_neg Bool.false_ne_true, Option.some_inj, ← hsum]
    exact ⟨fun e => congrArg _ e.symm, fun e => (BitVec.eq_of_toNat_eq e).symm⟩
  · have hover : a.uaddOverflow b = true := decide_eq_true (Nat.not_lt.mp h)
    rw [hover, if_pos rfl]
    exact ⟨nofun, fun e => absurd (e ▸ r.isLt) h⟩

/-- **A difference that is answered is the difference of the numbers.** -/
theorem sub_eq_some : sub a b = some r ↔ a.toNat = b.toNat + r.toNat := by
  unfold sub
  by_cases h : b.toNat ≤ a.toNat
  · have hfits : a.usubOverflow b = false := decide_eq_false (Nat.not_lt.mpr h)
    have hdiff : (a - b).toNat = a.toNat - b.toNat := BitVec.toNat_sub_of_le h
    rw [hfits, if_neg Bool.false_ne_true, Option.some_inj]
    constructor
    · rintro rfl
      omega
    · exact fun e => BitVec.eq_of_toNat_eq (by omega)
  · have hunder : a.usubOverflow b = true := decide_eq_true (Nat.not_le.mp h)
    rw [hunder, if_pos rfl]
    exact ⟨nofun, fun e => absurd (Nat.le.intro e.symm) h⟩

theorem add_of_lt (h : a.toNat + b.toNat < 2 ^ w) : add a b = some (a + b) :=
  add_eq_some.mpr (BitVec.toNat_add_of_lt h)

theorem sub_of_le (h : b.toNat ≤ a.toNat) : sub a b = some (a - b) := by
  rw [sub_eq_some, BitVec.toNat_sub_of_le h]
  omega

/-! ## 2. Bytes and indices -/

def addByte (x y : UInt8) : Option UInt8 := (add x.toBitVec y.toBitVec).map UInt8.ofBitVec

theorem addByte_of_lt {x y : UInt8} (h : x.toNat + y.toNat < 256) :
    addByte x y = some (x + y) := by
  have hsum : add x.toBitVec y.toBitVec = some (x.toBitVec + y.toBitVec) := add_of_lt h
  rw [addByte, hsum]
  rfl

/-- The difference of two lengths. -/
def subNat (m n : Nat) : Option Nat := if n ≤ m then some (m - n) else none

theorem subNat_of_le {m n : Nat} (h : n ≤ m) : subNat m n = some (m - n) := if_pos h

end Checked
