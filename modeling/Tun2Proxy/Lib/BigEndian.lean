/-
  File:      Tun2Proxy/Lib/BigEndian.lean
  Subject:   Byte strings read as numbers, most significant byte first.

  Network byte order, for any width: `value` reads a byte string, `bytes w n` writes the `w` low
  bytes of `n`, and `increment` adds one the way a carry loop does it, from the last byte to the
  first. The results are the two round trips (`value_bytes`, `bytes_value`) and that the carry
  loop is the successor modulo the width (`value_increment`).
-/
import Mathlib.Tactic.Ring
import Mathlib.Tactic.NormNum
import Mathlib.Data.List.Induction

namespace BigEndian

/-! ## 1. Reading and writing -/

/-- The number a byte string denotes, most significant byte first. -/
def value : List UInt8 → Nat
  | [] => 0
  | b :: bs => b.toNat * 256 ^ bs.length + value bs

/-- The `w` low bytes of `n`, most significant first. -/
def bytes : Nat → Nat → List UInt8
  | 0, _ => []
  | w + 1, n => UInt8.ofNat (n / 256 ^ w) :: bytes w n

@[simp] theorem length_bytes (w n : Nat) : (bytes w n).length = w := by
  induction w with
  | zero => rfl
  | succ w ih => simp [bytes, ih]

theorem value_append (xs ys : List UInt8) :
    value (xs ++ ys) = value xs * 256 ^ ys.length + value ys := by
  induction xs with
  | nil => simp [value]
  | cons b xs ih =>
    rw [List.cons_append, value, value, ih, List.length_append, pow_add]
    ring

theorem value_lt (bs : List UInt8) : value bs < 256 ^ bs.length := by
  induction bs with
  | nil => simp [value]
  | cons b bs ih =>
    have hb : b.toNat ≤ 255 := Nat.lt_succ_iff.mp b.toNat_lt
    calc value (b :: bs) < b.toNat * 256 ^ bs.length + 256 ^ bs.length :=
          Nat.add_lt_add_left ih _
      _ ≤ 255 * 256 ^ bs.length + 256 ^ bs.length :=
          Nat.add_le_add_right (Nat.mul_le_mul_right _ hb) _
      _ = 256 ^ (b :: bs).length := by rw [List.length_cons, pow_succ]; ring

/-- **Reading what was written**: the number, truncated to the width. -/
theorem value_bytes (w n : Nat) : value (bytes w n) = n % 256 ^ w := by
  induction w with
  | zero => simp [bytes, value, Nat.mod_one]
  | succ w ih =>
    have hb : (UInt8.ofNat (n / 256 ^ w)).toNat = n / 256 ^ w % 256 := UInt8.toNat_ofNat'
    rw [bytes, value, ih, hb, length_bytes, pow_succ, Nat.mod_mul, Nat.mul_comm, Nat.add_comm]

theorem value_bytes_of_lt {w n : Nat} (h : n < 256 ^ w) : value (bytes w n) = n := by
  rw [value_bytes, Nat.mod_eq_of_lt h]

theorem bytes_add_mul (w n k : Nat) : bytes w (n + k * 256 ^ w) = bytes w n := by
  induction w generalizing k with
  | zero => rfl
  | succ w ih =>
    have hpos : 0 < 256 ^ w := Nat.pow_pos (by norm_num)
    have e : n + k * 256 ^ (w + 1) = n + k * 256 * 256 ^ w := by rw [pow_succ]; ring
    rw [bytes, bytes, e, ih, Nat.add_mul_div_right _ _ hpos]
    congr 1
    apply UInt8.toNat.inj
    rw [UInt8.toNat_ofNat', UInt8.toNat_ofNat']
    omega

/-- **Writing what was read**: the byte string itself. -/
theorem bytes_value (bs : List UInt8) : bytes bs.length (value bs) = bs := by
  induction bs with
  | nil => rfl
  | cons b bs ih =>
    have hpos : 0 < 256 ^ bs.length := Nat.pow_pos (by norm_num)
    have e : value (b :: bs) = value bs + b.toNat * 256 ^ bs.length := Nat.add_comm _ _
    rw [List.length_cons, bytes, e, bytes_add_mul, ih, Nat.add_mul_div_right _ _ hpos,
      Nat.div_eq_of_lt (value_lt bs), Nat.zero_add, UInt8.ofNat_toNat]

/-! ## 2. The carry loop -/

/-- One pass over the bytes from the last to the first: the first byte that is not `255` takes
    the one and ends the pass, every `255` before it becomes `0`. The list is in pass order. -/
def carry : List UInt8 → List UInt8
  | [] => []
  | b :: bs => if b ≠ 255 then (b + 1) :: bs else 0 :: carry bs

/-- Adding one with the carry moving from the last byte to the first. -/
def increment (bs : List UInt8) : List UInt8 := (carry bs.reverse).reverse

theorem length_carry (bs : List UInt8) : (carry bs).length = bs.length := by
  induction bs with
  | nil => rfl
  | cons b bs ih =>
    unfold carry
    split <;> simp [ih]

@[simp] theorem length_increment (bs : List UInt8) : (increment bs).length = bs.length := by
  simp [increment, length_carry]

/-- The pass seen from its far end: what the last byte does, the carry goes on in the rest. -/
theorem increment_concat (bs : List UInt8) (b : UInt8) :
    increment (bs ++ [b]) = if b ≠ 255 then bs ++ [b + 1] else increment bs ++ [0] := by
  unfold increment
  rw [List.reverse_append, List.reverse_singleton, List.singleton_append, carry]
  split <;> simp

/-- A byte that takes the one has room for it. -/
theorem toNat_lt_of_ne {b : UInt8} (h : b ≠ 255) : b.toNat < 255 := by
  have hlt := b.toNat_lt
  have hne : b.toNat ≠ 255 := fun e => h (UInt8.toNat.inj e)
  omega

/-- **The carry loop is the successor**, modulo the width. -/
theorem value_increment (bs : List UInt8) :
    value (increment bs) = (value bs + 1) % 256 ^ bs.length := by
  induction bs using List.reverseRecOn with
  | nil => simp [increment, carry, value]
  | append_singleton bs b ih =>
    have hv : value (bs ++ [b]) = value bs * 256 + b.toNat := by simp [value_append, value]
    have hlen : (bs ++ [b]).length = bs.length + 1 := by simp
    have hbs := value_lt bs
    rw [increment_concat, hv, hlen, pow_succ]
    by_cases hb : b = 255
    · -- the carry passes through: the last byte is `0` and the rest takes the one
      subst hb
      rw [if_neg (by simp), value_append, ih]
      have e : value bs * 256 + (255 : UInt8).toNat + 1 = (value bs + 1) * 256 := by
        rw [show (255 : UInt8).toNat = 255 from rfl]; ring
      rw [e, Nat.mul_mod_mul_right]
      simp [value]
    · have hlt := toNat_lt_of_ne hb
      have hs : (b + 1).toNat = b.toNat + 1 := by
        rw [UInt8.toNat_add, show (1 : UInt8).toNat = 1 from rfl]; omega
      rw [if_pos hb, value_append, Nat.mod_eq_of_lt (by omega)]
      simp [value, hs]
      omega

end BigEndian
