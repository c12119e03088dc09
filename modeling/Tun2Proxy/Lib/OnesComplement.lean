/-
  File:      Tun2Proxy/Lib/OnesComplement.lean
  Subject:   Sums of 16-bit words with end-around carry, and the checksum made of them.

  The words of a byte string are added up, the carries are added back in, and the complement of
  that is the checksum. A sum of zero and a sum of 65535 are both zero in this arithmetic; the
  fold gives 65535 unless every word is zero (`fold_eq_of_dvd`). Hence a byte string whose checksum
  is put where two zero bytes stood has the checksum zero (`checksum_filled`), also when the rest
  of the words is all zero.
-/
import Tun2Proxy.Lib.BigEndian

namespace OnesComplement

/-- The sum of the words, most significant byte first; an odd last byte is padded with zero. -/
def wordSum : List UInt8 → Nat
  | [] => 0
  | [a] => a.toNat * 256
  | a :: b :: rest => a.toNat * 256 + b.toNat + wordSum rest

/-- The carries are added back in until there are none. -/
def fold (n : Nat) : Nat := if n < 65536 then n else fold (n % 65536 + n / 65536)
termination_by n
decreasing_by omega

def checksum (bytes : List UInt8) : UInt16 := UInt16.ofNat (65535 - fold (wordSum bytes))

theorem fold_lt (n : Nat) : fold n < 65536 := by
  fun_induction fold n with
  | case1 n h => exact h
  | case2 n h ih => exact ih

/-- Folding keeps the remainder of 65535. -/
theorem fold_mod (n : Nat) : fold n % 65535 = n % 65535 := by
  fun_induction fold n with
  | case1 n h => rfl
  | case2 n h ih =>
    rw [ih]
    omega

theorem fold_pos {n : Nat} (h : 0 < n) : 0 < fold n := by
  fun_induction fold n with
  | case1 n _ => exact h
  | case2 n hbig ih => exact ih (by omega)

/-- **A sum that is zero in this arithmetic** and does not come from zeros alone has all its bits
    set. -/
theorem fold_eq_of_dvd {n : Nat} (hpos : 0 < n) (h : n % 65535 = 0) : fold n = 65535 := by
  have hlt := fold_lt n
  have hmod := fold_mod n
  have hfold := fold_pos hpos
  omega

theorem toNat_checksum (bytes : List UInt8) :
    (checksum bytes).toNat = 65535 - fold (wordSum bytes) :=
  UInt16.toNat_ofNat_of_lt' (by show 65535 - _ < 65536; omega)

theorem wordSum_append {front : List UInt8} (h : front.length % 2 = 0) (back : List UInt8) :
    wordSum (front ++ back) = wordSum front + wordSum back := by
  fun_induction wordSum front with
  | case1 => exact (Nat.zero_add _).symm
  | case2 a => simp at h
  | case3 a b rest ih =>
    have hrest : rest.length % 2 = 0 := by
      simp only [List.length_cons] at h
      omega
    rw [List.cons_append, List.cons_append, wordSum, ih hrest, ← Nat.add_assoc]

/-- A word at an even place. -/
theorem wordSum_word {front : List UInt8} (h : front.length % 2 = 0) (word : UInt16)
    (back : List UInt8) :
    wordSum (front ++ (BigEndian.bytes 2 word.toNat ++ back)) =
      wordSum (front ++ (0 :: 0 :: back)) + word.toNat := by
  have hword := BigEndian.value_bytes_of_lt (w := 2) word.toNat_lt
  have hpair : wordSum (BigEndian.bytes 2 word.toNat ++ back) = word.toNat + wordSum back := by
    obtain ⟨a, b, hbytes⟩ : ∃ a b, BigEndian.bytes 2 word.toNat = [a, b] := ⟨_, _, rfl⟩
    have hvalue : BigEndian.value [a, b] = a.toNat * 256 + b.toNat := by simp [BigEndian.value]
    rw [hbytes, hvalue] at hword
    rw [hbytes, ← hword]
    rfl
  have hzero : wordSum (0 :: 0 :: back) = wordSum back := by simp [wordSum]
  rw [wordSum_append h, wordSum_append h, hpair, hzero]
  omega

/-- **A checksum in its place makes the checksum zero.** -/
theorem checksum_filled {front : List UInt8} (h : front.length % 2 = 0) (back : List UInt8) :
    checksum (front ++
      (BigEndian.bytes 2 (checksum (front ++ (0 :: 0 :: back))).toNat ++ back)) = 0 := by
  have hsum := wordSum_word h (checksum (front ++ (0 :: 0 :: back))) back
  rw [toNat_checksum] at hsum
  have hlt := fold_lt (wordSum (front ++ (0 :: 0 :: back)))
  have hmod := fold_mod (wordSum (front ++ (0 :: 0 :: back)))
  -- if all the other words are zero, the checksum is not
  have hpos : wordSum (front ++ (0 :: 0 :: back)) = 0 →
      fold (wordSum (front ++ (0 :: 0 :: back))) = 0 := by
    intro hzero
    rw [hzero, fold]
    rfl
  apply UInt16.toNat.inj
  rw [toNat_checksum, toNat_checksum, fold_eq_of_dvd (by omega) (by omega)]
  rfl

end OnesComplement
