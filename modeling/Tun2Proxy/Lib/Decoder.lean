/-
  File:      Tun2Proxy/Lib/Decoder.lean
  Subject:   Decoders that read a value off the front of a stream.

  A decoder takes the items in front of its input and leaves the rest. `Reads d used a`: on an
  input that starts with `used`, whatever follows, `d` consumes exactly `used` and gives `a`. A
  decoder is `Local` when all its successes are of this form, so what it gives depends on the
  items it consumes alone; it is `Framed` when their number can be told from the value, and
  `Incremental` when it asks for more on the way to a value instead of failing for good; it `Avoids`
  an error that no input leads to. There is one rule for each way a decoder is put together.
-/
import Mathlib.Data.List.Basic

/-- Reads an `α` off the front of the input, or fails. -/
abbrev Decoder (σ ε α : Type) := StateT (List σ) (Except ε) α

namespace Decoder

variable {σ ε α β : Type}

/-- The decoder consumes exactly `used` and gives `a`, whatever follows. -/
def Reads (d : Decoder σ ε α) (used : List σ) (a : α) : Prop :=
  ∀ rest, d (used ++ rest) = .ok (a, rest)

/-- The items of a number of values, one after the other. -/
inductive Whole (d : Decoder σ ε α) : List σ → Prop
  | nil : Whole d []
  | snoc {used more : List σ} {a : α} (h : Whole d used) (hreads : Reads d more a) :
      Whole d (used ++ more)

/-- Every success depends on the consumed items alone. -/
def Local (d : Decoder σ ε α) : Prop :=
  ∀ ⦃input : List σ⦄ ⦃a : α⦄ ⦃rest : List σ⦄, d input = .ok (a, rest) →
    ∃ used, input = used ++ rest ∧ Reads d used a

/-- Every success consumes `len` items and depends on them alone. -/
def Framed (d : Decoder σ ε α) (len : α → Nat) : Prop :=
  ∀ ⦃input : List σ⦄ ⦃a : α⦄ ⦃rest : List σ⦄, d input = .ok (a, rest) →
    ∃ used, input = used ++ rest ∧ used.length = len a ∧ Reads d used a

/-- On a proper initial part of what it reads, the decoder fails with an error that calls for
    more. -/
def Incremental (more : ε → Prop) (d : Decoder σ ε α) : Prop :=
  ∀ ⦃part rest : List σ⦄ ⦃a : α⦄, Reads d (part ++ rest) a → rest ≠ [] →
    ∃ e, d part = .error e ∧ more e

/-- The next `n` items, or the error `e` when there are fewer. -/
def take (e : ε) (n : Nat) : Decoder σ ε (List σ) := fun input =>
  if n ≤ input.length then .ok (input.take n, input.drop n) else .error e

/-! ## 1. Sequencing -/

variable {d : Decoder σ ε α} {f : α → Decoder σ ε β}

theorem bind_ok {input rest : List σ} {b : β} :
    (d >>= f) input = .ok (b, rest) ↔
      ∃ a mid, d input = .ok (a, mid) ∧ f a mid = .ok (b, rest) := by
  show (d input).bind (fun r => f r.1 r.2) = .ok (b, rest) ↔ _
  cases d input with
  | error e => simp [Except.bind]
  | ok r =>
    obtain ⟨a, mid⟩ := r
    simp only [Except.bind, Except.ok.injEq, Prod.mk.injEq]
    constructor
    · intro h
      exact ⟨a, mid, ⟨rfl, rfl⟩, h⟩
    · rintro ⟨a', mid', ⟨rfl, rfl⟩, h⟩
      exact h

theorem Reads.pure (a : α) : Reads (pure a : Decoder σ ε α) [] a := fun _ => rfl

theorem Reads.bind {u v : List σ} {a : α} {b : β} (hd : Reads d u a) (hf : Reads (f a) v b) :
    Reads (d >>= f) (u ++ v) b := by
  intro rest
  rw [List.append_assoc]
  exact bind_ok.mpr ⟨a, _, hd _, hf _⟩

theorem Local.pure (a : α) : Local (pure a : Decoder σ ε α) := by
  intro input b rest h
  cases h
  exact ⟨[], rfl, Reads.pure a⟩

theorem Local.throw (e : ε) : Local (throw e : Decoder σ ε α) := nofun

theorem Local.bind (hd : Local d) (hf : ∀ a, Local (f a)) : Local (d >>= f) := by
  intro input b rest h
  obtain ⟨a, mid, ha, hb⟩ := bind_ok.mp h
  obtain ⟨u, rfl, hu⟩ := hd ha
  obtain ⟨v, rfl, hv⟩ := hf a hb
  exact ⟨u ++ v, (List.append_assoc u v rest).symm, hu.bind hv⟩

/-! ## 2. Taking items -/

theorem take_ok {e : ε} {n : Nat} {input a rest : List σ} :
    take e n input = .ok (a, rest) ↔ input = a ++ rest ∧ a.length = n := by
  unfold take
  constructor
  · intro h
    split at h
    · rename_i hle
      cases h
      exact ⟨(List.take_append_drop n input).symm, List.length_take_of_le hle⟩
    · cases h
  · rintro ⟨rfl, rfl⟩
    simp

theorem Reads.take {e : ε} {n : Nat} {used : List σ} (h : used.length = n) :
    Reads (take e n) used used := fun _ => take_ok.mpr ⟨rfl, h⟩

theorem Local.take (e : ε) (n : Nat) : Local (take e n : Decoder σ ε (List σ)) := by
  intro input a rest h
  obtain ⟨rfl, hlen⟩ := take_ok.mp h
  exact ⟨a, rfl, Reads.take hlen⟩

/-! ## 3. Framing -/

/-- A decoder that reads exactly the code words of a format is framed. -/
theorem framed_of_words {len : α → Nat} (Word : List σ → α → Prop)
    (hd : ∀ input a rest, d input = .ok (a, rest) ↔ ∃ used, Word used a ∧ input = used ++ rest)
    (hlen : ∀ used a, Word used a → used.length = len a) : Framed d len := by
  intro input a rest h
  obtain ⟨used, hw, rfl⟩ := (hd input a rest).mp h
  exact ⟨used, rfl, hlen used a hw, fun rest => (hd _ _ _).mpr ⟨used, hw, rfl⟩⟩

/-- What a framed decoder reads has the length of the value. -/
theorem Framed.length {len : α → Nat} (hd : Framed d len) {used : List σ} {a : α}
    (h : Reads d used a) : used.length = len a := by
  have hr := h []
  obtain ⟨used', he, hlen, _⟩ := hd hr
  rw [List.append_nil, List.append_nil] at he
  rw [he, hlen]

/-! ## 4. Partial input -/

section Incremental

variable {more : ε → Prop}

theorem Incremental.pure (a : α) : Incremental more (pure a : Decoder σ ε α) := by
  intro part rest b h hne
  have hr : Except.ok (a, (part ++ rest) ++ []) = Except.ok (b, []) := h []
  simp only [Except.ok.injEq, Prod.mk.injEq, List.append_eq_nil_iff] at hr
  exact absurd hr.2.1.2 hne

theorem Incremental.throw (e : ε) : Incremental more (throw e : Decoder σ ε α) := by
  intro part rest a h
  cases h []

theorem Incremental.take {e : ε} (he : more e) (n : Nat) :
    Incremental more (take e n : Decoder σ ε (List σ)) := by
  intro part rest a h hne
  obtain ⟨hpart, hlen⟩ := take_ok.mp (h [])
  have hlt : part.length < n := by
    have := List.length_pos_of_ne_nil hne
    have := congrArg List.length hpart
    simp only [List.append_nil, List.length_append] at this
    omega
  exact ⟨e, if_neg (Nat.not_le.mpr hlt), he⟩

variable {d : Decoder σ ε α} {f : α → Decoder σ ε β}

theorem bind_error {input : List σ} {e : ε} (h : d input = .error e) :
    (d >>= f) input = .error e := by
  show (d input).bind _ = _
  rw [h]
  rfl

theorem bind_of_ok {input mid : List σ} {a : α} (h : d input = .ok (a, mid)) :
    (d >>= f) input = f a mid := by
  show (d input).bind _ = _
  rw [h]
  rfl

theorem Incremental.bind (hl : Local d) (hd : Incremental more d) (hf : ∀ a, Incremental more (f a))
    : Incremental more (d >>= f) := by
  intro part rest b h hne
  obtain ⟨a, mid, ha, -⟩ := bind_ok.mp (h [])
  obtain ⟨u, hu, hread⟩ := hl ha
  rw [List.append_nil] at hu
  have hmid : Reads (f a) mid b := by
    intro tail
    have ht := h tail
    rwa [hu, List.append_assoc, bind_of_ok (hread _)] at ht
  -- the cut is inside what `d` reads, or behind it
  rcases List.append_eq_append_iff.mp hu with ⟨u', rfl, rfl⟩ | ⟨p', rfl, rfl⟩
  · by_cases hu' : u' = []
    · subst hu'
      rw [List.append_nil] at hread
      have hmid : Reads (f a) ([] ++ mid) b := hmid
      obtain ⟨e, he, hm⟩ := hf a hmid hne
      have hpart := hread []
      rw [List.append_nil] at hpart
      exact ⟨e, by rw [bind_of_ok hpart, he], hm⟩
    · obtain ⟨e, he, hm⟩ := hd hread hu'
      exact ⟨e, bind_error he, hm⟩
  · obtain ⟨e, he, hm⟩ := hf a hmid hne
    exact ⟨e, by rw [bind_of_ok (hread _), he], hm⟩

end Incremental

/-! ## 5. Errors that do not happen -/

/-- The decoder fails with this error on no input. -/
def Avoids (e : ε) (d : Decoder σ ε α) : Prop := ∀ input, d input ≠ .error e

section Avoids

variable {e : ε}

theorem Avoids.pure (a : α) : Avoids e (pure a : Decoder σ ε α) := nofun

theorem Avoids.throw {e' : ε} (h : e' ≠ e) : Avoids e (throw e' : Decoder σ ε α) := by
  intro _ heq
  exact h (Except.error.inj heq)

theorem Avoids.take {e' : ε} (h : e' ≠ e) (n : Nat) :
    Avoids e (take e' n : Decoder σ ε (List σ)) := by
  intro input heq
  unfold Decoder.take at heq
  split at heq
  · cases heq
  · exact h (Except.error.inj heq)

theorem Avoids.bind {d : Decoder σ ε α} {f : α → Decoder σ ε β} (hd : Avoids e d)
    (hf : ∀ a, Avoids e (f a)) : Avoids e (d >>= f) := by
  intro input h
  cases hinput : d input with
  | error e' =>
    rw [bind_error hinput] at h
    exact hd input (hinput.trans (congrArg _ (Except.error.inj h)))
  | ok r =>
    rw [bind_of_ok hinput] at h
    exact hf r.1 r.2 h

end Avoids

end Decoder
