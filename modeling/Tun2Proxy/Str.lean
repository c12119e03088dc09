/-
  File:      Tun2Proxy/Str.lean
  Subject:   Strings of the source, and the operations it applies to host names.

  A `str` is the list of its characters; its bytes are their UTF-8 encoding, and `len` counts
  these bytes.
-/
import Mathlib.Data.List.DropRight

namespace Tun2Proxy

/-- `str`: the characters, in order. -/
abbrev Str := List Char

namespace Str

def asBytes (s : Str) : List UInt8 := s.flatMap String.utf8EncodeChar

/-- `str::len`, in bytes. -/
def len (s : Str) : Nat := s.asBytes.length

/-- `String::from_utf8`. -/
def fromUtf8 (bytes : List UInt8) : Option Str := bytes.toByteArray.utf8Decode?.map (·.toList)

def endsWith (s : Str) (c : Char) : Bool := s.getLast? == some c

def trimEndMatches (s : Str) (c : Char) : Str := s.rdropWhile (· == c)

/-- `str::to_ascii_lowercase`: only `A` to `Z` change. -/
def toAsciiLowercase (s : Str) : Str := s.map Char.toLower

/-- Reading the bytes of a string gives the string. -/
theorem fromUtf8_asBytes (s : Str) : fromUtf8 s.asBytes = some s := by
  have h : s.asBytes.toByteArray.utf8Decode? = some s.toArray := List.utf8Decode?_utf8Encode
  unfold fromUtf8
  rw [h]
  simp

/-- A string that was read has the bytes it was read from. -/
theorem asBytes_of_fromUtf8 {bytes : List UInt8} {s : Str} (h : fromUtf8 bytes = some s) :
    s.asBytes = bytes := by
  unfold fromUtf8 at h
  obtain ⟨chars, hc, rfl⟩ := Option.map_eq_some_iff.mp h
  have henc := ByteArray.utf8Encode_get_utf8Decode? (b := bytes.toByteArray) (h := by rw [hc]; rfl)
  simp only [hc, Option.get_some] at henc
  exact List.toByteArray_inj.mp henc

theorem toLower_of_not_capital {c : Char} (h : ¬ (c.val ≥ 'A'.val ∧ c.val ≤ 'Z'.val)) :
    c.toLower = c := dif_neg h

/-- A lower-cased character is no capital letter, so it stays. -/
theorem toLower_toLower (c : Char) : c.toLower.toLower = c.toLower := by
  by_cases h : c.val ≥ 'A'.val ∧ c.val ≤ 'Z'.val
  · have hv : c.toLower.val = c.val + 32 := by unfold Char.toLower; rw [dif_pos h]; rfl
    have h1 : 65 ≤ c.val.toNat := h.1
    have h2 : c.val.toNat ≤ 90 := h.2
    have hn : ¬ (c.toLower.val ≥ 'A'.val ∧ c.toLower.val ≤ 'Z'.val) := by
      rintro ⟨-, hle⟩
      have hle' : c.toLower.val.toNat ≤ 90 := hle
      rw [hv, UInt32.toNat_add, show (32 : UInt32).toNat = 32 from rfl] at hle'
      omega
    exact toLower_of_not_capital hn
  · rw [toLower_of_not_capital h, toLower_of_not_capital h]

theorem toLower_eq_dot {c : Char} : c.toLower = '.' ↔ c = '.' := by
  constructor
  · intro h
    by_cases hu : c.val ≥ 'A'.val ∧ c.val ≤ 'Z'.val
    · have hv : c.toLower.val = c.val + 32 := by unfold Char.toLower; rw [dif_pos hu]; rfl
      have h1 : 65 ≤ c.val.toNat := hu.1
      have h2 : c.val.toNat ≤ 90 := hu.2
      have h3 : (c.val + 32).toNat = 46 := by rw [← hv, h]; rfl
      rw [UInt32.toNat_add, show (32 : UInt32).toNat = 32 from rfl] at h3
      omega
    · rwa [toLower_of_not_capital hu] at h
  · rintro rfl
    rfl

@[simp] theorem toAsciiLowercase_idem (s : Str) :
    toAsciiLowercase (toAsciiLowercase s) = toAsciiLowercase s := by
  unfold toAsciiLowercase
  rw [List.map_map]
  exact List.map_congr_left fun c _ => toLower_toLower c

theorem endsWith_dot_lowercase (s : Str) :
    endsWith (toAsciiLowercase s) '.' = endsWith s '.' := by
  unfold endsWith toAsciiLowercase
  rw [List.getLast?_map]
  cases s.getLast? with
  | none => rfl
  | some c =>
    rw [Option.map_some, Bool.eq_iff_iff, beq_iff_eq, beq_iff_eq, Option.some.injEq,
      Option.some.injEq]
    exact toLower_eq_dot

theorem endsWith_trimEndMatches (s : Str) (c : Char) :
    endsWith (trimEndMatches s c) c = false := by
  unfold endsWith trimEndMatches
  rw [beq_eq_false_iff_ne]
  intro h
  have hne : s.rdropWhile (· == c) ≠ [] := by
    intro e
    rw [e] at h
    cases h
  have hlast := List.rdropWhile_last_not (· == c) s hne
  rw [List.getLast?_eq_some_getLast hne, Option.some.injEq] at h
  exact hlast (by rw [h]; exact beq_self_eq_true c)

end Str

end Tun2Proxy
