/-
  File:      Tun2Proxy/Lib/LruCache.lean
  Subject:   A cache that remembers the order of use, and what its order means.

  The cache is an association list with unique keys (`AList`), most recently used entry first.
  Looking a key up without using it is `peek`; `get`, `insert` move the entry to the front;
  `removeLru` takes the last one. The lemmas say, for every operation, what `peek` answers after
  it and what the order of the keys is after it; proofs about a client use these only.

  `Recency uses c` is the meaning of the order: `uses` is the history of the keys that were used,
  newest first, and the keys of the cache stand in the order of their latest use. Every operation
  keeps it (`recency_insert`, `recency_remove`, …), so the victim of `removeLru` is the key whose
  latest use is the earliest (`removeLru_earliest`).

  `Inverse c m`: the map `m` is the exact inverse of the cache. It is kept by removing an entry
  from both and by binding a free key to a free value in both.
-/
import Tun2Proxy.Lib.Maps

/-! ## 1. The cache and its operations -/

/-- A cache with unique keys, the most recently used entry first. -/
structure LruCache (κ υ : Type*) where
  table : AList (fun _ : κ => υ)

namespace LruCache

variable {κ υ : Type*}

def empty : LruCache κ υ := ⟨∅⟩

def len (c : LruCache κ υ) : Nat := c.table.entries.length

def isEmpty (c : LruCache κ υ) : Bool := c.table.entries.isEmpty

/-- The keys, most recently used first. -/
def order (c : LruCache κ υ) : List κ := c.table.keys

/-- The entries, least recently used first: the order in which the cache is iterated. -/
def iter (c : LruCache κ υ) : List (κ × υ) := (c.table.entries.map fun e => (e.1, e.2)).reverse

variable [DecidableEq κ]

/-- The value of a key, without using it. -/
def peek (c : LruCache κ υ) (a : κ) : Option υ := c.table.lookup a

/-- Inserting, or replacing the value; the entry is the most recently used one after it. -/
def insert (c : LruCache κ υ) (a : κ) (b : υ) : LruCache κ υ := ⟨c.table.insert a b⟩

/-- The cache after a lookup that uses the entry. -/
def touch (c : LruCache κ υ) (a : κ) : LruCache κ υ :=
  match c.peek a with
  | some b => c.insert a b
  | none => c

/-- A lookup that uses the entry. -/
def get (c : LruCache κ υ) (a : κ) : Option υ × LruCache κ υ := (c.peek a, c.touch a)

def remove (c : LruCache κ υ) (a : κ) : Option υ × LruCache κ υ := (c.peek a, ⟨c.table.erase a⟩)

/-- Takes the least recently used entry out. -/
def removeLru (c : LruCache κ υ) : Option ((κ × υ) × LruCache κ υ) :=
  match c.table.entries.getLast? with
  | some e => some ((e.1, e.2), ⟨c.table.erase e.1⟩)
  | none => none

/-! ## 2. What a lookup answers -/

@[grind =] theorem peek_insert (c : LruCache κ υ) (a x : κ) (b : υ) :
    (c.insert a b).peek x = if x = a then some b else c.peek x :=
  AList.lookup_insert_ite a x b c.table

@[grind =] theorem peek_remove (c : LruCache κ υ) (a x : κ) :
    (c.remove a).2.peek x = if x = a then none else c.peek x :=
  AList.lookup_erase_ite a x c.table

/-- **Using an entry changes no mapping.** -/
@[simp, grind =] theorem peek_touch (c : LruCache κ υ) (a x : κ) :
    (c.touch a).peek x = c.peek x := by
  unfold touch
  split
  · rename_i b hb
    rw [peek_insert]
    split
    · rename_i hx; subst hx; exact hb.symm
    · rfl
  · rfl

variable {c : LruCache κ υ} {a : κ}

theorem mem_order : a ∈ c.order ↔ (c.peek a).isSome :=
  (AList.mem_keys.symm).trans AList.lookup_isSome.symm

theorem notMem_order : a ∉ c.order ↔ c.peek a = none := by
  rw [mem_order, Option.isSome_iff_ne_none, not_not]

theorem mem_order_of_peek {b : υ} (h : c.peek a = some b) :
    a ∈ c.order := mem_order.mpr (h ▸ rfl)

/-- Iterating yields exactly the mappings. -/
theorem mem_iter {b : υ} : (a, b) ∈ c.iter ↔ c.peek a = some b := by
  unfold iter peek
  rw [List.mem_reverse, List.mem_map, ← Option.mem_def, AList.mem_lookup_iff]
  constructor
  · rintro ⟨e, he, h⟩
    obtain ⟨rfl, rfl⟩ := Prod.mk.inj h
    exact he
  · intro h
    exact ⟨⟨a, b⟩, h, rfl⟩

omit [DecidableEq κ] in
theorem nodup_order (c : LruCache κ υ) : c.order.Nodup := c.table.keys_nodup

omit [DecidableEq κ] in
theorem length_iter (c : LruCache κ υ) : c.iter.length = c.len := by
  unfold iter len
  rw [List.length_reverse, List.length_map]

omit [DecidableEq κ] in
theorem iter_map_fst (c : LruCache κ υ) : c.iter.map Prod.fst = c.order.reverse := by
  unfold iter order AList.keys List.keys
  rw [List.map_reverse, List.map_map]
  rfl

/-! ## 3. The order of the keys -/

theorem order_insert (c : LruCache κ υ) (a : κ) (b : υ) :
    (c.insert a b).order = a :: c.order.erase a := AList.keys_insert c.table

theorem order_remove (c : LruCache κ υ) (a : κ) : (c.remove a).2.order = c.order.erase a :=
  AList.keys_erase a c.table

theorem order_touch_of_mem (h : a ∈ c.order) : (c.touch a).order = a :: c.order.erase a := by
  obtain ⟨b, hb⟩ := Option.isSome_iff_exists.mp (mem_order.mp h)
  unfold touch
  rw [hb]
  exact order_insert c a b

theorem touch_of_notMem (h : a ∉ c.order) : c.touch a = c := by
  unfold touch
  rw [notMem_order.mp h]

variable {c' : LruCache κ υ}

/-- What `removeLru` takes: the last key of the order, with its value. -/
theorem removeLru_eq_some {b : υ} (h : c.removeLru = some ((a, b), c')) :
    c.order.getLast? = some a ∧ c.peek a = some b ∧ c' = (c.remove a).2 := by
  unfold removeLru at h
  split at h
  · rename_i e he
    simp only [Option.some.injEq, Prod.mk.injEq] at h
    obtain ⟨⟨rfl, rfl⟩, rfl⟩ := h
    refine ⟨?_, ?_, rfl⟩
    · unfold order AList.keys List.keys
      rw [List.getLast?_map, he]
      rfl
    · have hmem : e ∈ c.table.entries := List.mem_of_getLast? he
      exact Option.mem_def.mp (AList.mem_lookup_iff.mpr hmem)
  · cases h

theorem removeLru_isSome (h : c.order ≠ []) : ∃ a b c', c.removeLru = some ((a, b), c') := by
  unfold removeLru
  cases he : c.table.entries.getLast? with
  | some e => exact ⟨_, _, _, rfl⟩
  | none =>
    exfalso
    apply h
    unfold order AList.keys List.keys
    rw [List.getLast?_eq_none_iff.mp he]
    rfl

/-! ## 4. The order is the order of the latest uses -/

/-- `uses` is the history of the used keys, newest first; the keys of the cache stand in the
    order of their latest use. -/
def Recency (uses : List κ) (c : LruCache κ υ) : Prop :=
  (∀ a ∈ c.order, a ∈ uses) ∧ c.order.Pairwise fun a b => uses.idxOf a < uses.idxOf b

theorem recency_empty (uses : List κ) : Recency uses (empty : LruCache κ υ) :=
  ⟨fun _ h => absurd h List.not_mem_nil, List.Pairwise.nil⟩

variable {uses : List κ}

/-- Taking keys out keeps the order of the others. -/
theorem recency_of_sublist (h : Recency uses c) (hs : c'.order.Sublist c.order) : Recency uses c' :=
  ⟨fun a ha => h.1 a (hs.subset ha), h.2.sublist hs⟩

theorem recency_remove (h : Recency uses c) (a : κ) : Recency uses (c.remove a).2 :=
  recency_of_sublist h (by rw [order_remove]; exact List.erase_sublist)

/-- A cache whose order became `a` in front of the others, after a use of `a`. -/
theorem recency_cons (h : Recency uses c) (ho : c'.order = a :: c.order.erase a) :
    Recency (a :: uses) c' := by
  have hne : ∀ b ∈ c.order.erase a, b ≠ a := fun b hb e =>
    (List.Nodup.mem_erase_iff c.nodup_order).mp hb |>.1 e
  have hidx : ∀ b ∈ c.order.erase a, (a :: uses).idxOf b = uses.idxOf b + 1 := fun b hb =>
    List.idxOf_cons_ne _ (Ne.symm (hne b hb))
  refine ⟨fun b hb => ?_, ?_⟩
  · rw [ho] at hb
    rcases List.mem_cons.mp hb with rfl | hb
    · exact List.mem_cons_self
    · exact List.mem_cons_of_mem _ (h.1 b (List.mem_of_mem_erase hb))
  · rw [ho, List.pairwise_cons]
    refine ⟨fun b hb => ?_, ?_⟩
    · rw [hidx b hb, List.idxOf_cons_self]
      exact Nat.succ_pos _
    · have hp := h.2.sublist (List.erase_sublist (a := a))
      refine hp.imp_of_mem fun {b d} hb hd hlt => ?_
      rw [hidx b hb, hidx d hd]
      exact Nat.succ_lt_succ hlt

theorem recency_insert (h : Recency uses c) (a : κ) (b : υ) : Recency (a :: uses) (c.insert a b) :=
  recency_cons h (order_insert c a b)

theorem recency_touch (h : Recency uses c) (ha : a ∈ c.order) : Recency (a :: uses) (c.touch a) :=
  recency_cons h (order_touch_of_mem ha)

/-- **The victim is the key whose latest use is the earliest**: every other key of the cache was
    used after its latest use. -/
theorem removeLru_earliest {b : υ} (h : Recency uses c) (hr : c.removeLru = some ((a, b), c')) :
    ∀ x ∈ c.order, x ≠ a → uses.idxOf x < uses.idxOf a := by
  obtain ⟨hl, _, _⟩ := removeLru_eq_some hr
  obtain ⟨l, hl'⟩ := List.getLast?_eq_some_iff.mp hl
  intro x hx hne
  have hp := h.2
  rw [hl', List.pairwise_append] at hp
  rw [hl'] at hx
  rcases List.mem_append.mp hx with hx | hx
  · exact hp.2.2 x hx a (List.mem_singleton_self a)
  · exact absurd (List.mem_singleton.mp hx) hne

/-! ## 5. A cache and its inverse map -/

/-- The map finds the key of every value of the cache, and nothing else. -/
def Inverse [DecidableEq υ] (c : LruCache κ υ) (m : AList (fun _ : υ => κ)) : Prop :=
  ∀ a b, c.peek a = some b ↔ m.lookup b = some a

section Inverse

variable [DecidableEq υ] {c : LruCache κ υ} {m : AList (fun _ : υ => κ)}

theorem inverse_empty : Inverse (empty : LruCache κ υ) (∅ : AList (fun _ : υ => κ)) :=
  fun _ _ => ⟨nofun, nofun⟩

theorem inverse_touch (h : Inverse c m) (a : κ) : Inverse (c.touch a) m :=
  fun x b => by rw [peek_touch]; exact h x b

/-- In a cache with an inverse map a value has one key. -/
theorem Inverse.key_unique (h : Inverse c m) {a a' : κ} {b : υ} (ha : c.peek a = some b)
    (ha' : c.peek a' = some b) : a = a' := by
  rw [h] at ha ha'
  exact Option.some.inj (ha.symm.trans ha')

theorem Inverse.fresh (h : Inverse c m) {b : υ} (hb : m.lookup b = none) (a : κ) :
    c.peek a ≠ some b := by
  rw [Ne, h, hb]
  exact fun e => by cases e

/-- Removing an entry from both sides. -/
theorem inverse_remove (h : Inverse c m) {a : κ} {b : υ} (hab : c.peek a = some b) :
    Inverse (c.remove a).2 (m.erase b) := by
  intro x y
  rw [peek_remove, AList.lookup_erase_ite]
  by_cases hx : x = a
  · subst hx
    rw [if_pos rfl]
    split
    · simp
    · rename_i hy
      rw [← h, hab]
      simp [Ne.symm hy]
  · rw [if_neg hx]
    split
    · rename_i hy
      subst hy
      have hne : c.peek x ≠ some y := fun e => hx (h.key_unique e hab)
      simp [hne]
    · exact h x y

/-- Binding a free key to a free value on both sides. -/
theorem inverse_insert (h : Inverse c m) {a : κ} {b : υ} (ha : c.peek a = none)
    (hb : m.lookup b = none) : Inverse (c.insert a b) (m.insert b a) := by
  intro x y
  rw [peek_insert, AList.lookup_insert_ite]
  by_cases hx : x = a
  · subst hx
    rw [if_pos rfl]
    split
    · rename_i hy; subst hy; simp
    · rename_i hy
      rw [← h, ha]
      simp [Ne.symm hy]
  · rw [if_neg hx]
    split
    · rename_i hy
      subst hy
      simp [h.fresh hb x, Ne.symm hx]
    · exact h x y

end Inverse

end LruCache
