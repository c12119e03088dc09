/-
  File:      Tun2Proxy/Forwarding/FakeAddresses.lean
  Subject:   From a DNS answer to the session that follows it.

  All session tasks share one fake-IP table. While a task waits, others give addresses out and look
  them up; the task goes on with what its calls returned.
-/
import Tun2Proxy.Forwarding.Routes
import Tun2Proxy.VirtualDns.Lifetime

namespace Tun2Proxy.Forwarding

/-! ## 1. A task among others -/

/-- The table, and the addresses used so far, the newest first. -/
structure Shared where
  uses : List IpAddr
  world : World

section Codec

-- `resolves`: what the physical resolvers may answer for a name, a port and a family
variable (codec : RecordCodec) (resolves : Str → UInt16 → Bool → SocketAddr → Prop)
  {Interface : Type}

/-- A call of `resolve_virtual_domain`. -/
def Shared.looked (s : Shared) (ip : IpAddr) : Shared :=
  ⟨s.world.used ip ++ (s.world.used ip ++ s.uses),
    { s.world with dns := (resolveVirtualDomain s.world.dns ip).2 }⟩

/-- The calls of a task themselves, where there is a table. Only a lookup touches it. -/
def Answers (s : Shared) : (op : TaskOp Interface) → op.Result → Shared → Prop
  | .lookup ip, r, s' => r = (resolveVirtualDomain s.world.dns ip).1 ∧ s' = s.looked ip
  | .resolveBound domain port _ wantIpv6 _, r, s' =>
    (∀ destination, r = .ok destination → resolves domain port wantIpv6 destination) ∧ s' = s
  | _, _, s' => s' = s

variable {codec resolves} {pool : IpCidr} {s s₁ s₂ : Shared} {w : World} {ip : IpAddr} {name : Str}

end Codec

end Tun2Proxy.Forwarding
