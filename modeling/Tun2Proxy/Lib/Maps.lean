/-
  File:      Tun2Proxy/Lib/Maps.lean
  Subject:   Maps with unique keys (`AList`): what is found after a change, and how long they get.
-/
import Mathlib.Data.List.AList

namespace AList

variable {κ υ : Type*} [DecidableEq κ]

/-! ## 1. Lookup -/

attribute [grind =] lookup_empty

@[grind =]
theorem lookup_insert_ite (a x : κ) (b : υ) (s : AList (fun _ : κ => υ)) :
    (s.insert a b).lookup x = if x = a then some b else s.lookup x := by
  by_cases h : x = a
  · subst h; rw [if_pos rfl, AList.lookup_insert]
  · rw [if_neg h, AList.lookup_insert_ne h]

@[grind =]
theorem lookup_erase_ite (a x : κ) (s : AList (fun _ : κ => υ)) :
    (s.erase a).lookup x = if x = a then none else s.lookup x := by
  by_cases h : x = a
  · subst h; rw [if_pos rfl, AList.lookup_erase]
  · rw [if_neg h, AList.lookup_erase_ne h]

theorem mem_of_lookup {s : AList (fun _ : κ => υ)} {a : κ} {b : υ} (h : s.lookup a = some b) :
    a ∈ s := lookup_isSome.mp (by rw [h]; rfl)

/-! ## 2. Length -/

omit [DecidableEq κ] in
theorem length_entries (s : AList (fun _ : κ => υ)) : s.entries.length = s.keys.length :=
  (List.length_map _).symm

theorem length_erase_le (s : AList (fun _ : κ => υ)) (a : κ) :
    (s.erase a).entries.length ≤ s.entries.length := (List.kerase_sublist a s.entries).length_le

/-- A key that is there makes room. -/
theorem length_erase_lt {s : AList (fun _ : κ => υ)} {a : κ} (h : a ∈ s) :
    (s.erase a).entries.length < s.entries.length := by
  have hmem : a ∈ s.keys := mem_keys.mp h
  have hpos := List.length_pos_of_mem hmem
  rw [length_entries, length_entries, keys_erase, List.length_erase_of_mem hmem]
  omega

theorem length_insert_le (s : AList (fun _ : κ => υ)) (a : κ) (b : υ) :
    (s.insert a b).entries.length ≤ s.entries.length + 1 := by
  rw [entries_insert, List.length_cons]
  exact Nat.succ_le_succ (length_erase_le s a)

/-- A key that is there keeps its place. -/
theorem length_insert_of_mem {s : AList (fun _ : κ => υ)} {a : κ} (h : a ∈ s) (b : υ) :
    (s.insert a b).entries.length = s.entries.length := by
  have hmem : a ∈ s.keys := mem_keys.mp h
  have hpos := List.length_pos_of_mem hmem
  rw [length_entries, length_entries, keys_insert, List.length_cons,
    List.length_erase_of_mem hmem]
  omega

end AList
