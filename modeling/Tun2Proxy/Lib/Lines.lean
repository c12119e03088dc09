/-
  File:      Tun2Proxy/Lib/Lines.lean
  Subject:   Byte streams read line by line.

  `lines` is what a buffered reader's line iterator yields on a byte stream: the stream is cut
  after every newline byte, a last segment without a newline is a line too, a segment that is
  not UTF-8 yields an error (`none`), and the terminator (`\n` or `\r\n`) is taken off. A stream
  is `Terminated` when nothing stands after its last newline; reading a terminated stream and
  what was appended to it is reading the two parts (`lines_append`), which fails for a stream
  with an unterminated last line.
-/
import Mathlib.Data.List.Basic

namespace Lines

/-- The newline byte. -/
def newline : UInt8 := 10

/-- The carriage return byte. -/
def carriageReturn : UInt8 := 13

/-- The segments of a stream: each one up to and with its newline, the last one perhaps without. -/
def segments : List UInt8 → List (List UInt8)
  | [] => []
  | b :: bs =>
    if b = newline then [b] :: segments bs
    else
      match segments bs with
      | [] => [[b]]
      | l :: ls => (b :: l) :: ls

/-- A segment without its terminator. -/
def chomp (segment : List UInt8) : List UInt8 :=
  if segment.getLast? = some newline then
    if segment.dropLast.getLast? = some carriageReturn then segment.dropLast.dropLast
    else segment.dropLast
  else segment

/-- Whether a byte string is UTF-8. -/
def validUtf8 (bytes : List UInt8) : Bool := (ByteArray.mk bytes.toArray).validateUTF8

/-- The lines of a stream; `none` is the error of a segment that is not UTF-8. -/
def lines (bytes : List UInt8) : List (Option (List UInt8)) :=
  (segments bytes).map fun segment => if validUtf8 segment then some (chomp segment) else none

/-- Nothing stands after the last newline. -/
def Terminated (bytes : List UInt8) : Prop := bytes = [] ∨ ∃ init, bytes = init ++ [newline]

/-! ## 1. UTF-8 -/

theorem validUtf8_iff {bytes : List UInt8} :
    validUtf8 bytes = true ↔ (ByteArray.mk bytes.toArray).IsValidUTF8 :=
  ByteArray.validateUTF8_eq_true_iff

theorem byteArray_append (xs ys : List UInt8) :
    ByteArray.mk (xs ++ ys).toArray = ByteArray.mk xs.toArray ++ ByteArray.mk ys.toArray := by
  apply ByteArray.ext
  rw [ByteArray.data_append]
  simp

theorem validUtf8_append {xs ys : List UInt8} (hx : validUtf8 xs = true)
    (hy : validUtf8 ys = true) : validUtf8 (xs ++ ys) = true := by
  rw [validUtf8_iff] at *
  rw [byteArray_append]
  exact hx.append hy

theorem validUtf8_newline : validUtf8 [newline] = true := by
  rw [validUtf8_iff]
  exact ⟨['\n'], rfl⟩

/-! ## 2. Segments -/

theorem segments_eq_nil {bs : List UInt8} : segments bs = [] ↔ bs = [] := by
  cases bs with
  | nil => simp [segments]
  | cons b bs =>
    simp only [segments]
    split
    · simp
    · split <;> simp

/-- No segment is empty. -/
theorem length_segments_le (bs : List UInt8) : (segments bs).length ≤ bs.length := by
  induction bs with
  | nil => exact Nat.le_refl _
  | cons b bs ih =>
    rw [segments]
    split
    · exact Nat.succ_le_succ ih
    · cases hs : segments bs with
      | nil => exact Nat.succ_le_succ (Nat.zero_le _)
      | cons l ls =>
        rw [hs] at ih
        exact Nat.le_succ_of_le ih

/-- A newline ends the first segment. -/
theorem segments_newline (l rest : List UInt8) (h : newline ∉ l) :
    segments (l ++ newline :: rest) = (l ++ [newline]) :: segments rest := by
  induction l with
  | nil => simp [segments]
  | cons b l ih =>
    have hb : b ≠ newline := fun e => h (e ▸ List.mem_cons_self)
    rw [List.cons_append, segments, if_neg hb, ih fun hm => h (List.mem_cons_of_mem _ hm)]
    rfl

/-- A stream without a newline is one segment. -/
theorem segments_tail {l : List UInt8} (h : newline ∉ l) (hne : l ≠ []) : segments l = [l] := by
  induction l with
  | nil => exact absurd rfl hne
  | cons b l ih =>
    have hb : b ≠ newline := fun e => h (e ▸ List.mem_cons_self)
    rw [segments, if_neg hb]
    by_cases hl : l = []
    · subst hl; rfl
    · rw [ih (fun hm => h (List.mem_cons_of_mem _ hm)) hl]

theorem Terminated.tail {b : UInt8} {bs : List UInt8} (h : Terminated (b :: bs)) :
    Terminated bs := by
  rcases h with h | ⟨init, h⟩
  · cases h
  · cases init with
    | nil => exact Or.inl (List.cons.inj h).2
    | cons c init => exact Or.inr ⟨init, (List.cons.inj h).2⟩

theorem terminated_append_newline (l : List UInt8) : Terminated (l ++ [newline]) :=
  Or.inr ⟨l, rfl⟩

theorem Terminated.append {xs ys : List UInt8} (hx : Terminated xs) (hy : Terminated ys) :
    Terminated (xs ++ ys) := by
  rcases hy with rfl | ⟨init, rfl⟩
  · rwa [List.append_nil]
  · exact Or.inr ⟨xs ++ init, (List.append_assoc _ _ _).symm⟩

/-- **The segments of a terminated stream do not change when the stream grows.** -/
theorem segments_append {bs : List UInt8} (h : Terminated bs) (rest : List UInt8) :
    segments (bs ++ rest) = segments bs ++ segments rest := by
  induction bs with
  | nil => rfl
  | cons b bs ih =>
    have ih := ih h.tail
    rw [List.cons_append, segments, segments]
    by_cases hb : b = newline
    · rw [if_pos hb, if_pos hb, ih]
      rfl
    · rw [if_neg hb, if_neg hb, ih]
      have hne : bs ≠ [] := by
        rintro rfl
        rcases h with h | ⟨init, h⟩
        · cases h
        · cases init with
          | nil => exact hb (List.cons.inj h).1
          | cons c init => simp at h
      obtain ⟨l, ls, hl⟩ := List.exists_cons_of_ne_nil (segments_eq_nil.not.mpr hne)
      rw [hl]
      rfl

/-! ## 3. Lines -/

theorem chomp_newline {l : List UInt8} (h : carriageReturn ∉ l) : chomp (l ++ [newline]) = l := by
  have hlast : l.getLast? ≠ some carriageReturn := fun e => h (List.mem_of_getLast? e)
  unfold chomp
  rw [List.getLast?_concat, if_pos rfl, List.dropLast_concat, if_neg hlast]

theorem chomp_of_notMem {l : List UInt8} (h : newline ∉ l) : chomp l = l := by
  unfold chomp
  rw [if_neg fun e => h (List.mem_of_getLast? e)]

theorem lines_append {bs : List UInt8} (h : Terminated bs) (rest : List UInt8) :
    lines (bs ++ rest) = lines bs ++ lines rest := by
  unfold lines
  rw [segments_append h, List.map_append]

/-- A terminated line without line-end bytes is read back as it is. -/
theorem lines_cons {l : List UInt8} (hn : newline ∉ l) (hr : carriageReturn ∉ l)
    (hv : validUtf8 l = true) (rest : List UInt8) :
    lines (l ++ newline :: rest) = some l :: lines rest := by
  unfold lines
  rw [segments_newline l rest hn, List.map_cons, if_pos (validUtf8_append hv validUtf8_newline),
    chomp_newline hr]

/-- A last line without its newline is read too. -/
theorem lines_tail {l : List UInt8} (hn : newline ∉ l) (hne : l ≠ []) :
    lines l = [if validUtf8 l then some l else none] := by
  unfold lines
  rw [segments_tail hn hne, List.map_singleton, chomp_of_notMem hn]

end Lines
