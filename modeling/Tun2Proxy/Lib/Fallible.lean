/-
  File:      Tun2Proxy/Lib/Fallible.lean
  Subject:   Rules for computations that may fail and keep their state when they do.

  `Spec m s Q E`: the run of `m` from the state `s` ends well in a result and a state that meet
  `Q`, or fails in a state that meets `E`. There is one rule for each way such a computation is
  put together; a proof about a sequence of operations names the specification of each one.
-/
import Mathlib.Logic.Basic

namespace Fallible

universe u

variable {ε σ α β : Type u}

/-- What a run guarantees at its end, good (`Q`) or bad (`E`). -/
def Spec (m : EStateM ε σ α) (s : σ) (Q : α → σ → Prop) (E : σ → Prop) : Prop :=
  match m s with
  | .ok a s' => Q a s'
  | .error _ s' => E s'

variable {Q : α → σ → Prop} {E : σ → Prop}

theorem Spec.pure {a : α} {s : σ} (h : Q a s) :
    Spec (pure a : EStateM ε σ α) s Q E := h

variable {m : EStateM ε σ α}

/-- Sequencing: what the first computation guarantees is what the second one starts from. -/
theorem Spec.bind {f : α → EStateM ε σ β} {s : σ} {R : β → σ → Prop} (hm : Spec m s Q E)
    (hf : ∀ a s', Q a s' → Spec (f a) s' R E) : Spec (m >>= f) s R E := by
  show Spec (EStateM.bind m f) s R E
  unfold Spec at hm ⊢
  unfold EStateM.bind
  split at hm
  · rename_i a s' hs
    rw [hs]
    exact hf a s' hm
  · rename_i e s' hs
    rw [hs]
    exact hm

theorem Spec.mono {s : σ} {Q' : α → σ → Prop} {E' : σ → Prop} (h : Spec m s Q E)
    (hQ : ∀ a s', Q a s' → Q' a s') (hE : ∀ s', E s' → E' s') : Spec m s Q' E' := by
  unfold Spec at *
  split at h
  · exact hQ _ _ h
  · exact hE _ h

theorem Spec.ok {s s' : σ} {a : α} (h : Spec m s Q E) (hm : m s = .ok a s') : Q a s' := by
  unfold Spec at h
  rwa [hm] at h

theorem Spec.error {s s' : σ} {e : ε} (h : Spec m s Q E) (hm : m s = .error e s') : E s' := by
  unfold Spec at h
  rwa [hm] at h

end Fallible
