/-
  File:      Tun2Proxy/Lib/Utf16.lean
  Subject:   Characters as UTF-16 code units.

  A character outside the basic plane is a pair of surrogates, a leading one and a trailing one.
  `decode` fails on a surrogate without its partner. Decoding what was encoded gives the characters
  (`decode_encode`), and only the character zero is encoded with a unit zero.
-/
import Mathlib.Data.List.Basic

namespace Utf16

/-- The code units of a character. -/
def encodeChar (c : Char) : List UInt16 :=
  if c.toNat < 0x10000 then [UInt16.ofNat c.toNat]
  else
    [UInt16.ofNat (0xD800 + (c.toNat - 0x10000) / 0x400),
      UInt16.ofNat (0xDC00 + (c.toNat - 0x10000) % 0x400)]

def encode (s : List Char) : List UInt16 := s.flatMap encodeChar

/-- The character of a pair of surrogates. -/
def pairChar (lead trail : UInt16) : Char :=
  Char.ofNat (lead.toNat % 0x400 * 0x400 + trail.toNat % 0x400 + 0x10000)

/-- The characters of code units, unless a surrogate has no partner. -/
def decode : List UInt16 → Option (List Char)
  | [] => some []
  | u :: rest =>
    if u.toNat < 0xD800 || 0xDFFF < u.toNat then
      (decode rest).map (Char.ofNat u.toNat :: ·)
    else if 0xDC00 ≤ u.toNat then none
    else
      match rest with
      | [] => none
      | v :: rest =>
        if v.toNat < 0xDC00 || 0xDFFF < v.toNat then none
        else (decode rest).map (pairChar u v :: ·)

theorem decode_unit {u : UInt16} (h : u.toNat < 0xD800 ∨ 0xDFFF < u.toNat) (rest : List UInt16) :
    decode (u :: rest) = (decode rest).map (Char.ofNat u.toNat :: ·) := by
  rw [decode.eq_def]
  exact if_pos (by simpa using h)

theorem decode_pair {lead trail : UInt16} (hlead : 0xD800 ≤ lead.toNat ∧ lead.toNat < 0xDC00)
    (htrail : 0xDC00 ≤ trail.toNat ∧ trail.toNat ≤ 0xDFFF) (rest : List UInt16) :
    decode (lead :: trail :: rest) = (decode rest).map (pairChar lead trail :: ·) := by
  have hsurrogate : ¬ (lead.toNat < 0xD800 || 0xDFFF < lead.toNat) = true := by
    simp only [Bool.or_eq_true, decide_eq_true_iff]
    omega
  have hpartner : ¬ (trail.toNat < 0xDC00 || 0xDFFF < trail.toNat) = true := by
    simp only [Bool.or_eq_true, decide_eq_true_iff]
    omega
  rw [decode, if_neg hsurrogate, if_neg (by omega), if_neg hpartner]

/-- A character is no surrogate, and has at most 21 bits. -/
theorem toNat_bounds (c : Char) :
    c.toNat < 0xD800 ∨ (0xDFFF < c.toNat ∧ c.toNat < 0x110000) := c.valid

theorem toNat_unit {n : Nat} (h : n < 0x10000) : (UInt16.ofNat n).toNat = n :=
  UInt16.toNat_ofNat_of_lt' h

/-- **One character.** -/
theorem decode_encodeChar (c : Char) (rest : List UInt16) :
    decode (encodeChar c ++ rest) = (decode rest).map (c :: ·) := by
  have hbounds := toNat_bounds c
  unfold encodeChar
  split
  next hbasic =>
      have hunit := toNat_unit hbasic
      rw [List.singleton_append, decode_unit (by omega), hunit, Char.ofNat_toNat]
  next hpair =>
      have hlead : (UInt16.ofNat (0xD800 + (c.toNat - 0x10000) / 0x400)).toNat = _ :=
        toNat_unit (by omega)
      have htrail : (UInt16.ofNat (0xDC00 + (c.toNat - 0x10000) % 0x400)).toNat = _ :=
        toNat_unit (by omega)
      rw [List.cons_append, List.singleton_append, decode_pair (by omega) (by omega), pairChar,
        hlead, htrail]
      have hvalue : (0xD800 + (c.toNat - 0x10000) / 0x400) % 0x400 * 0x400 +
          (0xDC00 + (c.toNat - 0x10000) % 0x400) % 0x400 + 0x10000 = c.toNat := by omega
      rw [hvalue, Char.ofNat_toNat]

/-- **Decoding what was encoded.** -/
theorem decode_encode (s : List Char) : decode (encode s) = some s := by
  induction s with
  | nil => rfl
  | cons c s ih =>
    have hsplit : encode (c :: s) = encodeChar c ++ encode s := List.flatMap_cons
    rw [hsplit, decode_encodeChar, ih]
    rfl

/-- Only the character zero has a unit zero. -/
theorem zero_notMem_encode {s : List Char} (h : Char.ofNat 0 ∉ s) : 0 ∉ encode s := by
  intro hmem
  obtain ⟨c, hc, hunit⟩ := List.mem_flatMap.mp hmem
  have hbounds := toNat_bounds c
  have hne : c.toNat ≠ 0 := by
    intro hzero
    rw [← Char.ofNat_toNat c, hzero] at hc
    exact h hc
  unfold encodeChar at hunit
  split at hunit
  next hbasic =>
      have heq := congrArg UInt16.toNat (List.mem_singleton.mp hunit)
      rw [toNat_unit hbasic] at heq
      exact hne heq.symm
  next hpair =>
      have hunits : ∀ n < 0x10000, n ≠ 0 → (0 : UInt16) ≠ UInt16.ofNat n := by
        intro n hn hnz heq
        have heq := congrArg UInt16.toNat heq
        rw [toNat_unit hn] at heq
        exact hnz heq.symm
      rcases List.mem_pair.mp hunit with heq | heq
      · exact hunits _ (by omega) (by omega) heq
      · exact hunits _ (by omega) (by omega) heq

end Utf16
