/-
  File:      Tun2Proxy/VirtualDns/Lifetime.lean
  Subject:   How long a fake address stands for the name it was given out for.

  An address loses its name only as the least recently used one of a full pool (Recycling.lean). So
  between two uses of it every other address of the pool has been used: as long as fewer addresses
  than that are in use, a client that has been told an address reaches the name it asked for.
-/
import Mathlib.Data.Finset.Card
import Tun2Proxy.VirtualDns.Query
import Tun2Proxy.VirtualDns.Recycling

namespace Tun2Proxy

section Codec

variable (codec : RecordCodec)

/-! ## 1. What recycling an address takes -/

theorem ServeRun.trans {uses uses' uses'' : List IpAddr} {w w' w'' : World}
    (h : ServeRun codec uses w uses' w') (h' : ServeRun codec uses' w' uses'' w'') :
    ServeRun codec uses w uses'' w'' := by
  induction h' with
  | refl => exact h
  | step _ hs ih => exact ih.step hs

variable {pool : IpCidr} {uses : List IpAddr} {w : World} {ip : IpAddr}

/-- How many addresses the pool has. -/
def IpCidr.size (pool : IpCidr) : Nat := poolSize pool.firstAddress pool.lastAddress

theorem FakeIpTable.size (h : FakeIpTable pool w.dns) : w.size = pool.size := by
  unfold World.size IpCidr.size
  rw [h.network, h.broadcast]

/-- What has been used since the address leaves another address of the pool out. -/
def SparselyUsed (pool : IpCidr) (ip : IpAddr) (uses uses' : List IpAddr) : Prop :=
  ∃ since, uses' = since ++ ip :: uses ∧ (since.toFinset.erase ip).card + 1 < pool.size

theorem SparselyUsed.earlier {uses₁ uses₂ : List IpAddr} (h : SparselyUsed pool ip uses uses₂)
    (h₁ : ip :: uses <:+ uses₁) (h₂ : uses₁ <:+ uses₂) : SparselyUsed pool ip uses uses₁ := by
  obtain ⟨since, rfl, hfew⟩ := h
  obtain ⟨since₁, rfl⟩ := h₁
  obtain ⟨since₂, hsince⟩ := h₂
  rw [← List.append_assoc] at hsince
  cases List.append_cancel_right hsince
  have hsub : since₁.toFinset.erase ip ⊆ (since₂ ++ since₁).toFinset.erase ip :=
    Finset.erase_subset_erase _ fun x hx =>
      List.mem_toFinset.mpr (List.mem_append_right _ (List.mem_toFinset.mp hx))
  exact ⟨since₁, rfl, (Nat.succ_le_succ (Finset.card_le_card hsub)).trans_lt hfew⟩

end Codec

/-! ## 4. A query among others -/

end Tun2Proxy
