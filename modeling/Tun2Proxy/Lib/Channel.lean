/-
  File:      Tun2Proxy/Lib/Channel.lean
  Subject:   A stream that carries values, between a writer and a reader.

  The writer begins a value, writes its encoding in parts, and may give up in the middle of one. The
  reader reads what has been written, in parts of any size and with any delay, and takes the
  encodings of values off the front of what it has. It may give up as well.

  Neither of them tells the other where a value ends. If a decoder reads each encoding back,
  whatever follows it, the reader nevertheless stays in step: it takes the values in the order in
  which they were begun (`Channel.Inv`), so a value it takes is one that was begun
  (`Channel.Inv.taken`).
-/
import Mathlib.Logic.Relation
import Tun2Proxy.Lib.Decoder

structure Channel (σ α : Type) where
  /-- The values the writer has begun, in order. -/
  begun : List α
  written : List σ
  /-- What is left to write of the last one; nothing is known once the writer has given up. -/
  left : Option (List σ)
  consumed : List σ
  /-- What was read and not yet taken; nothing is known once the reader has given up. -/
  held : Option (List σ)

namespace Channel

open Decoder

variable {σ ε α β : Type} (d : Decoder σ ε β) (encode : α → List σ) (view : α → β)

inductive Step (c : Channel σ α) : Channel σ α → Prop
  | begin {a : α} (hleft : c.left = some []) (hcodes : Reads d (encode a) (view a)) :
      Step c { c with
        begun := c.begun ++ [a]
        left := some (encode a) }
  | write {part rest : List σ} (hleft : c.left = some (part ++ rest)) :
      Step c { c with
        written := c.written ++ part
        left := some rest }
  | stopWriting : Step c { c with left := none }
  | read {held part : List σ} (hheld : c.held = some held)
      (harrived : c.consumed ++ part <+: c.written) :
      Step c { c with
        consumed := c.consumed ++ part
        held := some (held ++ part) }
  | take {used rest : List σ} {b : β} (hheld : c.held = some (used ++ rest))
      (hreads : Reads d used b) : Step c { c with held := some rest }
  | stopReading : Step c { c with held := none }

/-- A number of steps. -/
abbrev Steps : Channel σ α → Channel σ α → Prop := Relation.ReflTransGen (Step d encode view)

/-- **The reader is in step with the writer.** -/
structure Inv (c : Channel σ α) : Prop where
  codes : ∀ a ∈ c.begun, Reads d (encode a) (view a)
  written : ∃ cut, c.written ++ cut = c.begun.flatMap encode ∧
    ∀ left, c.left = some left → cut = left
  arrived : c.consumed <+: c.written
  held : ∀ held, c.held = some held →
    ∃ done later, c.begun = done ++ later ∧ c.consumed = done.flatMap encode ++ held

variable {d encode view} {c c' : Channel σ α}

/-- The items of a value are read and taken at once. -/
theorem steps_value {used : List σ} {b : β} (hheld : c.held = some [])
    (harrived : c.consumed ++ used <+: c.written) (hreads : Reads d used b) :
    Steps d encode view c { c with consumed := c.consumed ++ used } := by
  have hread : Step d encode view c
      { c with consumed := c.consumed ++ used, held := some ([] ++ used) } := .read hheld harrived
  have htake : Step d encode view
      { c with consumed := c.consumed ++ used, held := some ([] ++ used) }
      { c with consumed := c.consumed ++ used, held := some [] } :=
    .take (congrArg some (List.append_nil _).symm) hreads
  rw [← hheld] at htake
  exact .tail (.single hread) htake

/-- What is read off the front of some encodings is the first of them. -/
theorem front {later : List α} (hcodes : ∀ a ∈ later, Reads d (encode a) (view a))
    (hempty : ∀ b, ¬ Reads d [] b) {used rest : List σ} {b : β} (hreads : Reads d used b)
    (h : used ++ rest = later.flatMap encode) :
    ∃ a later', later = a :: later' ∧ used = encode a ∧ b = view a := by
  cases later with
  | nil =>
    rw [List.flatMap_nil] at h
    obtain ⟨rfl, -⟩ := List.append_eq_nil_iff.mp h
    exact absurd hreads (hempty b)
  | cons a later' =>
    rw [List.flatMap_cons] at h
    -- the decoder reads the same input in two ways
    have hfirst := hreads rest
    rw [h, hcodes a List.mem_cons_self] at hfirst
    cases hfirst
    exact ⟨a, later', rfl, List.append_cancel_right h, rfl⟩

namespace Inv

/-- What the reader takes is the next value the writer has begun. -/
theorem next (h : Inv d encode view c) (hempty : ∀ b, ¬ Reads d [] b) {used rest : List σ} {b : β}
    (hheld : c.held = some (used ++ rest)) (hreads : Reads d used b) :
    ∃ done a later, c.begun = done ++ a :: later ∧
      c.consumed = done.flatMap encode ++ (used ++ rest) ∧ used = encode a ∧ b = view a := by
  obtain ⟨done, later, hbegun, hconsumed⟩ := h.held _ hheld
  obtain ⟨cut, hcut, -⟩ := h.written
  obtain ⟨more, hmore⟩ := h.arrived
  have hlater : used ++ (rest ++ more ++ cut) = later.flatMap encode := by
    rw [← hmore, hconsumed, hbegun, List.flatMap_append] at hcut
    simpa only [List.append_assoc, List.append_cancel_left_eq] using hcut
  have hcodes : ∀ a ∈ later, Reads d (encode a) (view a) := fun a ha =>
    h.codes a (hbegun ▸ List.mem_append_right _ ha)
  obtain ⟨a, later', rfl, hused, hb⟩ := front hcodes hempty hreads hlater
  exact ⟨done, a, later', hbegun, hconsumed, hused, hb⟩

/-- **What the reader takes was begun by the writer.** -/
theorem taken (h : Inv d encode view c) (hempty : ∀ b, ¬ Reads d [] b) {used rest : List σ} {b : β}
    (hheld : c.held = some (used ++ rest)) (hreads : Reads d used b) :
    ∃ a ∈ c.begun, b = view a := by
  obtain ⟨done, a, later, hbegun, -, -, hb⟩ := h.next hempty hheld hreads
  exact ⟨a, hbegun ▸ List.mem_append_right _ List.mem_cons_self, hb⟩

theorem step (h : Inv d encode view c) (hempty : ∀ b, ¬ Reads d [] b)
    (hs : Step d encode view c c') : Inv d encode view c' := by
  cases hs with
  | @begin a hleft hcodes =>
    obtain ⟨cut, hcut, hcutLeft⟩ := h.written
    obtain rfl := hcutLeft [] hleft
    rw [List.append_nil] at hcut
    refine ⟨fun x hx => ?_, ⟨encode a, ?_, fun left hl => Option.some.inj hl⟩, h.arrived,
      fun held hh => ?_⟩
    · rcases List.mem_append.mp hx with hx | hx
      · exact h.codes x hx
      · obtain rfl := List.mem_singleton.mp hx
        exact hcodes
    · show c.written ++ encode a = (c.begun ++ [a]).flatMap encode
      rw [List.flatMap_append, List.flatMap_singleton, hcut]
    · obtain ⟨done, later, hbegun, hconsumed⟩ := h.held held hh
      exact ⟨done, later ++ [a], by rw [hbegun, List.append_assoc], hconsumed⟩
  | @write part rest hleft =>
    obtain ⟨cut, hcut, hcutLeft⟩ := h.written
    obtain rfl := hcutLeft _ hleft
    refine ⟨h.codes, ⟨rest, ?_, fun left hl => Option.some.inj hl⟩,
      h.arrived.trans (List.prefix_append _ _), h.held⟩
    show c.written ++ part ++ rest = _
    rw [List.append_assoc]
    exact hcut
  | stopWriting =>
    obtain ⟨cut, hcut, -⟩ := h.written
    exact ⟨h.codes, ⟨cut, hcut, nofun⟩, h.arrived, h.held⟩
  | @read held part hheld harrived =>
    refine ⟨h.codes, h.written, harrived, fun held' hh => ?_⟩
    cases hh
    obtain ⟨done, later, hbegun, hconsumed⟩ := h.held held hheld
    refine ⟨done, later, hbegun, ?_⟩
    show c.consumed ++ part = _
    rw [hconsumed, List.append_assoc]
  | @take used rest b hheld hreads =>
    refine ⟨h.codes, h.written, h.arrived, fun held' hh => ?_⟩
    cases hh
    obtain ⟨done, a, later, hbegun, hconsumed, rfl, -⟩ := h.next hempty hheld hreads
    refine ⟨done ++ [a], later, by rw [hbegun, List.append_cons], ?_⟩
    show c.consumed = _
    rw [hconsumed, List.flatMap_append, List.flatMap_singleton, List.append_assoc]
  | stopReading => exact ⟨h.codes, h.written, h.arrived, nofun⟩

/-- A value that is read and taken at once was begun by the writer. -/
theorem taken_value (h : Inv d encode view c) (hempty : ∀ b, ¬ Reads d [] b) {used : List σ}
    {b : β} (hheld : c.held = some []) (harrived : c.consumed ++ used <+: c.written)
    (hreads : Reads d used b) : ∃ a ∈ c.begun, b = view a :=
  (h.step hempty (.read hheld harrived)).taken hempty (congrArg some (List.append_nil _).symm)
    hreads

theorem steps (h : Inv d encode view c) (hempty : ∀ b, ¬ Reads d [] b)
    (hs : Steps d encode view c c') : Inv d encode view c' := by
  induction hs with
  | refl => exact h
  | tail _ hs ih => exact ih.step hempty hs

end Inv

end Channel
