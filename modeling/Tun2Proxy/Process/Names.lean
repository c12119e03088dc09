/-
  File:      Tun2Proxy/Process/Names.lean
  Subject:   Reading the list of process names and setting it again (src/process_bypass.rs).

  `set_names` normalizes what it is given, and `names` gives what `set_names` has kept. Whether the
  list survives being set again is a question about `normalize_process_name` alone: it takes one
  `.exe` away and trims before that, so a name may still end in `.exe` or in white space.

  The set is sorted by the bytes of its strings; in UTF-8 this is the order of their characters.
-/
import Mathlib.Data.Char
import Mathlib.Data.Finset.Max
import Mathlib.Data.List.Lex
import Mathlib.Data.List.Sort
import Tun2Proxy.Process.Policy

namespace Tun2Proxy

/-! ## 1. The list that is kept -/

theorem mem_insertName {name other : Str} {set : List Str} :
    other ∈ insertName name set ↔ other = name ∨ other ∈ set := by
  fun_induction insertName name set with
  | case1 => exact List.mem_cons
  | case2 rest => exact ⟨.inr, fun h => h.elim (fun e => e ▸ List.mem_cons_self) id⟩
  | case3 => exact List.mem_cons
  | case4 first rest _ _ ih =>
    rw [List.mem_cons, List.mem_cons, ih]
    exact or_left_comm

theorem pairwise_insertName {name : Str} {set : List Str} (h : set.Pairwise (· < ·)) :
    (insertName name set).Pairwise (· < ·) := by
  fun_induction insertName name set with
  | case1 => exact List.pairwise_singleton _ _
  | case2 => exact h
  | case3 first rest _ hlt =>
    refine h.cons fun other hmem => ?_
    rcases List.mem_cons.mp hmem with rfl | hmem
    · exact hlt
    · exact lt_trans hlt (List.rel_of_pairwise_cons h hmem)
  | case4 first rest hne hge ih =>
    have hlt : first < name := lt_of_le_of_ne (not_lt.mp hge) (Ne.symm hne)
    refine (ih h.of_cons).cons fun other hmem => ?_
    rcases mem_insertName.mp hmem with rfl | hmem
    · exact hlt
    · exact List.rel_of_pairwise_cons h hmem

/-- Inserting one after the other. -/
theorem mem_foldl_insertName {name : Str} (names set : List Str) :
    name ∈ names.foldl (fun set name => insertName name set) set ↔ name ∈ set ∨ name ∈ names := by
  induction names generalizing set with
  | nil => simp
  | cons first rest ih =>
    rw [List.foldl_cons, ih, mem_insertName, List.mem_cons]
    tauto

theorem pairwise_foldl_insertName (names : List Str) {set : List Str} (h : set.Pairwise (· < ·)) :
    (names.foldl (fun set name => insertName name set) set).Pairwise (· < ·) := by
  induction names generalizing set with
  | nil => exact h
  | cons first rest ih => exact ih (pairwise_insertName h)

theorem mem_effectiveNames {name : Str} {names : List Str} :
    name ∈ effectiveNames names ↔
      name ≠ [] ∧ ∃ given ∈ names, normalizeProcessName given = name := by
  rw [effectiveNames, mem_foldl_insertName, List.mem_filter, List.mem_map, and_comm]
  simp

/-- **The list is sorted.** -/
theorem pairwise_effectiveNames (names : List Str) : (effectiveNames names).Pairwise (· < ·) :=
  pairwise_foldl_insertName _ List.Pairwise.nil

/-! ## 2. Names that stay -/

/-- Nothing is left for `normalize_process_name` to take away. -/
def SettledName (name : Str) : Prop := Str.trim name = name ∧ ¬ ".exe".toList <:+ name

instance (name : Str) : Decidable (SettledName name) := inferInstanceAs (Decidable (_ ∧ _))

theorem trim_sublist (s : Str) : (Str.trim s).Sublist s :=
  (List.rdropWhile_prefix _ _).sublist.trans (List.dropWhile_suffix _).sublist

theorem length_stripSuffix_le (s suffix : Str) : (stripSuffix s suffix).length ≤ s.length := by
  unfold stripSuffix
  split
  · rw [List.length_take]
    exact Nat.min_le_right _ _
  · exact Nat.le_refl _

theorem toAsciiLowercase_normalizeProcessName (name : Str) :
    Str.toAsciiLowercase (normalizeProcessName name) = normalizeProcessName name := by
  unfold normalizeProcessName stripSuffix
  split
  · rw [Str.toAsciiLowercase, List.map_take]
    congr 1
    exact Str.toAsciiLowercase_idem _
  · exact Str.toAsciiLowercase_idem _

theorem normalizeProcessName_of_settled {name : Str} (hlower : Str.toAsciiLowercase name = name)
    (h : SettledName name) : normalizeProcessName name = name := by
  unfold normalizeProcessName stripSuffix
  rw [h.1, hlower, if_neg h.2]

/-- A name that does not stay gets shorter. -/
theorem length_normalizeProcessName_lt {name : Str} (hlower : Str.toAsciiLowercase name = name)
    (h : ¬ SettledName name) : (normalizeProcessName name).length < name.length := by
  by_cases htrim : Str.trim name = name
  · -- nothing is trimmed, so there is a suffix to take
    have hsuffix : ".exe".toList <:+ name := not_not.mp fun hno => h ⟨htrim, hno⟩
    have hlong : 4 ≤ name.length := hsuffix.length_le
    unfold normalizeProcessName stripSuffix
    rw [htrim, hlower, if_pos hsuffix, List.length_take]
    exact lt_of_le_of_lt (Nat.min_le_left _ _) (Nat.sub_lt (by omega) (by decide))
  · have hshort : (Str.trim name).length < name.length := by
      refine lt_of_le_of_ne (trim_sublist name).length_le fun heq => htrim ?_
      exact (trim_sublist name).eq_of_length heq
    calc (normalizeProcessName name).length
        ≤ (Str.toAsciiLowercase (Str.trim name)).length := length_stripSuffix_le _ _
      _ = (Str.trim name).length := List.length_map _
      _ < name.length := hshort

theorem normalizeProcessName_eq_self {name : Str} (hlower : Str.toAsciiLowercase name = name) :
    normalizeProcessName name = name ↔ SettledName name := by
  refine ⟨fun hself => not_not.mp fun hno => ?_, normalizeProcessName_of_settled hlower⟩
  have hlt := length_normalizeProcessName_lt hlower hno
  rw [hself] at hlt
  exact absurd hlt (Nat.lt_irrefl _)

theorem lowercase_of_mem_effectiveNames {name : Str} {names : List Str}
    (h : name ∈ effectiveNames names) : Str.toAsciiLowercase name = name := by
  obtain ⟨-, given, -, rfl⟩ := mem_effectiveNames.mp h
  exact toAsciiLowercase_normalizeProcessName given

/-- **When the list survives being set again.** If one of its names does not stay, take a longest
    such name: the name that it comes from does not stay either, and is longer. -/
theorem effectiveNames_effectiveNames (names : List Str) :
    effectiveNames (effectiveNames names) = effectiveNames names ↔
      ∀ name ∈ effectiveNames names, SettledName name := by
  constructor
  · intro hsame
    by_contra hno
    obtain ⟨name, hname, hunsettled⟩ : ∃ name ∈ effectiveNames names, ¬ SettledName name := by
      simpa using hno
    obtain ⟨longest, hlongest, hmax⟩ :=
      ((effectiveNames names).toFinset.filter (¬ SettledName ·)).exists_max_image List.length
        ⟨name, Finset.mem_filter.mpr ⟨List.mem_toFinset.mpr hname, hunsettled⟩⟩
    obtain ⟨hmem, hnot⟩ := Finset.mem_filter.mp hlongest
    rw [List.mem_toFinset] at hmem
    rw [← hsame] at hmem
    obtain ⟨-, source, hsource, rfl⟩ := mem_effectiveNames.mp hmem
    have hlower := lowercase_of_mem_effectiveNames hsource
    have hsourceNot : ¬ SettledName source := by
      intro hsettled
      rw [normalizeProcessName_of_settled hlower hsettled] at hnot
      exact hnot hsettled
    have hle := hmax source
      (Finset.mem_filter.mpr ⟨List.mem_toFinset.mpr hsource, hsourceNot⟩)
    exact absurd (length_normalizeProcessName_lt hlower hsourceNot) (Nat.not_lt.mpr hle)
  · intro hsettled
    refine (pairwise_effectiveNames _).eq_of_mem_iff (pairwise_effectiveNames _) fun name => ?_
    have hself : ∀ given ∈ effectiveNames names, normalizeProcessName given = given :=
      fun given hgiven => normalizeProcessName_of_settled
        (lowercase_of_mem_effectiveNames hgiven) (hsettled given hgiven)
    constructor
    · intro hmem
      obtain ⟨-, given, hgiven, rfl⟩ := mem_effectiveNames.mp hmem
      rw [hself given hgiven]
      exact hgiven
    · intro hmem
      exact mem_effectiveNames.mpr ⟨(mem_effectiveNames.mp hmem).1, name, hmem, hself name hmem⟩

/-! ## 3. Setting the list again -/

/-- `set_names`, with nobody in between: the replacement and its announcement, or neither. -/
def setNames (bypass : Watch (List Str)) (names : List Str) : Watch (List Str) :=
  if effectiveNames names ≠ bypass.value then (bypass.replace (effectiveNames names)).announce
  else bypass

@[simp] theorem setNames_value (bypass : Watch (List Str)) (names : List Str) :
    (setNames bypass names).value = effectiveNames names := by
  unfold setNames
  split
  next => rfl
  next hsame => exact (not_not.mp hsame).symm

/-- A call changes nothing and wakes nobody exactly when the list is the one in effect. -/
theorem setNames_eq_self {bypass : Watch (List Str)} {names : List Str} :
    setNames bypass names = bypass ↔ effectiveNames names = bypass.value := by
  constructor
  · intro h
    rw [← setNames_value bypass, h]
  · intro h
    exact if_neg (not_not.mpr h)

/-- What is on the list is settled if all that was given becomes settled. -/
theorem settled_effectiveNames {names : List Str} :
    (∀ name ∈ effectiveNames names, SettledName name) ↔
      ∀ given ∈ names, SettledName (normalizeProcessName given) := by
  refine ⟨fun h given hgiven => ?_, fun h name hname => ?_⟩
  · by_cases hempty : normalizeProcessName given = []
    · rw [hempty]
      decide
    · exact h _ (mem_effectiveNames.mpr ⟨hempty, given, hgiven, rfl⟩)
  · obtain ⟨-, given, hgiven, rfl⟩ := mem_effectiveNames.mp hname
    exact h given hgiven

/-- **Setting the list that was read.** Whatever `set_names` was given, the list is sorted, without
    duplicates and without empty names. Setting it again leaves the list and its revision as they
    are exactly when none of the names ends in `.exe` or has white space around it, that is, when
    no given string becomes such a name; and the others are the strings on which
    `normalize_process_name` is idempotent. -/
theorem names_set_again (bypass : Watch (List Str)) (names : List Str) :
    ((setNames bypass names).value.Pairwise (· < ·) ∧ (setNames bypass names).value.Nodup ∧
      ∀ name ∈ (setNames bypass names).value, name ≠ []) ∧
    (setNames (setNames bypass names) (setNames bypass names).value = setNames bypass names ↔
      ∀ name ∈ (setNames bypass names).value, SettledName name) ∧
    ((∀ name ∈ (setNames bypass names).value, SettledName name) ↔
      ∀ given ∈ names, SettledName (normalizeProcessName given)) ∧
    ∀ name, normalizeProcessName (normalizeProcessName name) = normalizeProcessName name ↔
      SettledName (normalizeProcessName name) := by
  rw [setNames_eq_self, setNames_value]
  have hsorted := pairwise_effectiveNames names
  refine ⟨⟨hsorted, hsorted.imp ne_of_lt, fun name hmem => (mem_effectiveNames.mp hmem).1⟩,
    effectiveNames_effectiveNames names, settled_effectiveNames, fun name => ?_⟩
  exact normalizeProcessName_eq_self (toAsciiLowercase_normalizeProcessName name)

/-- The list of the one name `a.exe.exe` is `a.exe`; setting that makes it `a`, and the
    subscribers are woken. -/
theorem names_set_again_changes :
    let bypass := setNames ⟨[], 0, 0⟩ ["a.exe.exe".toList]
    bypass.value = ["a.exe".toList] ∧ (setNames bypass bypass.value).value = ["a".toList] ∧
      bypass.version < (setNames bypass bypass.value).version := by
  decide

end Tun2Proxy
