/-
  File:      Tun2Proxy/Lib/Pieces.lean
  Subject:   Decoders on a stream that arrives in pieces.

  A read of such a stream gives what is left of the piece in front, or a part of it, so to take `n`
  items is a loop over the pieces (`gather`). `Agrees d' d`: on every way to cut a stream, `d'`
  succeeds when `d` does on the whole of it, with the same value, and leaves the same items. There
  is one rule for each way a decoder is put together.
-/
import Tun2Proxy.Lib.Decoder

/-- Items that arrive together; a read that gives none is the end of the stream. -/
structure Piece (σ : Type) where
  items : List σ
  ne_nil : items ≠ []

/-- Reads an `α` off the front of the pieces, or fails. -/
abbrev PieceDecoder (σ ε α : Type) := StateT (List (Piece σ)) (Except ε) α

namespace PieceDecoder

variable {σ ε α β : Type}

/-- The items of a stream in pieces. -/
def joined (pieces : List (Piece σ)) : List σ := pieces.flatMap Piece.items

@[simp] theorem joined_nil : joined ([] : List (Piece σ)) = [] := rfl

@[simp] theorem joined_cons (p : Piece σ) (ps : List (Piece σ)) :
    joined (p :: ps) = p.items ++ joined ps := rfl

/-- The next `n` items, read by read, or the error `e` when the stream ends before. -/
def gather (e : ε) : Nat → PieceDecoder σ ε (List σ)
  | 0, ps => .ok ([], ps)
  | _ + 1, [] => .error e
  | n + 1, p :: ps =>
    if h : n + 1 < p.items.length then
      .ok (p.items.take (n + 1), ⟨p.items.drop (n + 1), by simpa using h⟩ :: ps)
    else
      match gather e (n + 1 - p.items.length) ps with
      | .error e => .error e
      | .ok (rest, ps) => .ok (p.items ++ rest, ps)

/-- `d'` on the pieces does what `d` does on the items. -/
structure Agrees (d' : PieceDecoder σ ε α) (d : Decoder σ ε α) : Prop where
  sound : ∀ {ps a ps'}, d' ps = .ok (a, ps') → d (joined ps) = .ok (a, joined ps')
  complete : ∀ {ps a rest}, d (joined ps) = .ok (a, rest) →
    ∃ ps', d' ps = .ok (a, ps') ∧ joined ps' = rest

theorem bind_ok {d : PieceDecoder σ ε α} {f : α → PieceDecoder σ ε β} {ps ps' : List (Piece σ)}
    {b : β} :
    (d >>= f) ps = .ok (b, ps') ↔ ∃ a mid, d ps = .ok (a, mid) ∧ f a mid = .ok (b, ps') := by
  show (d ps).bind (fun r => f r.1 r.2) = .ok (b, ps') ↔ _
  cases d ps with
  | error e => simp [Except.bind]
  | ok r =>
    obtain ⟨a, mid⟩ := r
    constructor
    · intro h
      exact ⟨a, mid, rfl, h⟩
    · rintro ⟨a', mid', heq, h⟩
      cases heq
      exact h

theorem Agrees.pure (a : α) : Agrees (pure a : PieceDecoder σ ε α) (pure a) where
  sound h := by
    cases h
    rfl
  complete {ps} _ _ h := by
    cases h
    exact ⟨ps, rfl, rfl⟩

theorem Agrees.throw (e e' : ε) : Agrees (throw e : PieceDecoder σ ε α) (throw e') :=
  ⟨nofun, nofun⟩

theorem Agrees.bind {d' : PieceDecoder σ ε α} {d : Decoder σ ε α}
    {f' : α → PieceDecoder σ ε β} {f : α → Decoder σ ε β} (hd : Agrees d' d)
    (hf : ∀ a, Agrees (f' a) (f a)) : Agrees (d' >>= f') (d >>= f) where
  sound h := by
    obtain ⟨a, mid, ha, hb⟩ := bind_ok.mp h
    exact Decoder.bind_ok.mpr ⟨a, joined mid, hd.sound ha, (hf a).sound hb⟩
  complete h := by
    obtain ⟨a, mid, ha, hb⟩ := Decoder.bind_ok.mp h
    obtain ⟨ps₁, hps₁, rfl⟩ := hd.complete ha
    obtain ⟨ps₂, hps₂, hrest⟩ := (hf a).complete hb
    exact ⟨ps₂, bind_ok.mpr ⟨a, ps₁, hps₁, hps₂⟩, hrest⟩

/-- What the reads give is the front of the stream. -/
theorem gather_ok {e : ε} {ps ps' : List (Piece σ)} {n : Nat} {a : List σ}
    (h : gather e n ps = .ok (a, ps')) : joined ps = a ++ joined ps' ∧ a.length = n := by
  induction ps generalizing n a ps' with
  | nil =>
    cases n with
    | zero =>
      cases h
      exact ⟨rfl, rfl⟩
    | succ n => cases h
  | cons p ps ih =>
    cases n with
    | zero =>
      cases h
      exact ⟨rfl, rfl⟩
    | succ n =>
      unfold gather at h
      split at h
      · rename_i hlt
        cases h
        refine ⟨?_, List.length_take_of_le (Nat.le_of_lt hlt)⟩
        rw [joined_cons, joined_cons, ← List.append_assoc, List.take_append_drop]
      · rename_i hle
        split at h
        · cases h
        · rename_i hrec
          cases h
          obtain ⟨hjoin, hlen⟩ := ih hrec
          refine ⟨?_, ?_⟩
          · rw [joined_cons, hjoin, List.append_assoc]
          · rw [List.length_append, hlen]
            omega

/-- The reads go on until they have all the items. -/
theorem exists_gather (e : ε) {ps : List (Piece σ)} {n : Nat} (h : n ≤ (joined ps).length) :
    ∃ a ps', gather e n ps = .ok (a, ps') := by
  induction ps generalizing n with
  | nil =>
    obtain rfl := Nat.le_zero.mp h
    exact ⟨[], [], rfl⟩
  | cons p ps ih =>
    cases n with
    | zero => exact ⟨[], p :: ps, rfl⟩
    | succ n =>
      by_cases hlt : n + 1 < p.items.length
      · exact ⟨_, _, dif_pos hlt⟩
      · rw [joined_cons, List.length_append] at h
        obtain ⟨rest, ps', hrec⟩ := ih (n := n + 1 - p.items.length) (by omega)
        refine ⟨p.items ++ rest, ps', ?_⟩
        unfold gather
        rw [dif_neg hlt, hrec]

/-- **Reading on until there are enough items is taking them from the whole.** -/
theorem Agrees.take (e e' : ε) (n : Nat) :
    Agrees (gather e n : PieceDecoder σ ε (List σ)) (Decoder.take e' n) where
  sound h := Decoder.take_ok.mpr (gather_ok h)
  complete {ps a rest} h := by
    obtain ⟨hjoin, hlen⟩ := Decoder.take_ok.mp h
    have hle : n ≤ (joined ps).length := by
      rw [hjoin, List.length_append, hlen]
      exact Nat.le_add_right _ _
    obtain ⟨a', ps', hg⟩ := exists_gather e hle
    obtain ⟨hjoin', hlen'⟩ := gather_ok hg
    obtain ⟨rfl, hrest⟩ := List.append_inj (hjoin.symm.trans hjoin') (hlen.trans hlen'.symm)
    exact ⟨ps', hg, hrest.symm⟩

end PieceDecoder
