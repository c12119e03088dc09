/-
  File:      Tun2Proxy/Net/Arithmetic.lean
  Subject:   The address arithmetic of src/virtual_dns.rs, step by step and with its overflow
             checks.

  `incrementIp` and `upperHalfStart` of Net/IpAddr are what the two functions return. Here they
  are what the functions do: the `for` loop over the octets by index, with its `break`, and the
  sums and differences of `u32` and `u128` one after the other. `none` is a panic: an index
  outside of the octets, or an overflow.

  * `incrementBytes_eq`: the loop by index is the carry pass of Lib/BigEndian.
  * `halfStart_spec`: no step of the midpoint overflows if the ends are in order.
  * `address_arithmetic` says what both compute, as numbers.
-/
import Mathlib.Algebra.Order.Floor.Div
import Mathlib.GroupTheory.GroupAction.Ring
import Tun2Proxy.Lib.Checked
import Tun2Proxy.Net.IpAddr

namespace Tun2Proxy

open BigEndian (value)

/-! ## 1. The carry loop, by index -/

/-- One iteration of the loop of `increment_ip`; `done` is its `break`. -/
def incrementStep (j : Nat) (ipBytes : List UInt8) : Option (ForInStep (List UInt8)) := do
  let last ← Checked.subNat ipBytes.length 1
  let i ← Checked.subNat last j
  let byte ← ipBytes[i]?
  if byte ≠ 255 then
    let sum ← Checked.addByte byte 1
    return .done (ipBytes.set i sum)
  else
    return .yield (ipBytes.set i 0)

/-- The loop `for j in 0..ip_bytes.len()`. -/
def incrementBytes (ipBytes : List UInt8) : Option (List UInt8) :=
  forIn (List.range ipBytes.length) ipBytes incrementStep

/-- `VirtualDns::increment_ip` with the loop as it stands. -/
def incrementIpChecked (addr : IpAddr) : Option (Except Error IpAddr) := do
  let ipBytes ← incrementBytes addr.octets
  return if addr.isIpv4 then IpAddr.ofOctets4 ipBytes else IpAddr.ofOctets16 ipBytes

/-- An iteration reads the byte before those that are done. -/
theorem incrementStep_concat (bs done : List UInt8) (b : UInt8) :
    incrementStep done.length (bs ++ b :: done) =
      if b ≠ 255 then some (.done (bs ++ (b + 1) :: done))
      else some (.yield (bs ++ 0 :: done)) := by
  have hlen : (bs ++ b :: done).length = bs.length + done.length + 1 := by
    rw [List.length_append, List.length_cons, Nat.add_assoc]
  have hindex : bs.length + done.length + 1 - 1 - done.length = bs.length := by omega
  have hget : (bs ++ b :: done)[bs.length]? = some b := by
    rw [List.getElem?_append_right (Nat.le_refl _), Nat.sub_self]
    rfl
  have hset (x : UInt8) : (bs ++ b :: done).set bs.length x = bs ++ x :: done := by
    rw [List.set_append_right _ _ (Nat.le_refl _), Nat.sub_self]
    rfl
  have hlast : Checked.subNat (bs.length + done.length + 1) 1 =
      some (bs.length + done.length + 1 - 1) := Checked.subNat_of_le (by omega)
  have hplace : Checked.subNat (bs.length + done.length + 1 - 1) done.length =
      some bs.length := (Checked.subNat_of_le (by omega)).trans (congrArg _ hindex)
  unfold incrementStep
  simp only [hlen, hlast, hplace, hget, hset, Option.bind_eq_bind, Option.bind_some]
  by_cases hb : b ≠ 255
  · have hroom : b.toNat + (1 : UInt8).toNat < 256 :=
      Nat.succ_lt_succ (BigEndian.toNat_lt_of_ne hb)
    rw [if_pos hb, if_pos hb, Checked.addByte_of_lt hroom]
    rfl
  · rw [if_neg hb, if_neg hb]
    rfl

/-- The iterations that are left carry through the bytes in front of those that are done. -/
theorem forIn_incrementStep (bs done : List UInt8) :
    forIn (List.range' done.length bs.length) (bs ++ done) incrementStep =
      some (BigEndian.increment bs ++ done) := by
  induction bs using List.reverseRecOn generalizing done with
  | nil => rfl
  | append_singleton bs b ih =>
    rw [List.length_append, List.length_singleton, List.range'_succ, List.forIn_cons,
      List.append_assoc, List.singleton_append, incrementStep_concat,
      BigEndian.increment_concat]
    by_cases hb : b ≠ 255
    · rw [if_pos hb, if_pos hb, List.append_assoc]
      rfl
    · rw [if_neg hb, if_neg hb, List.append_assoc]
      exact ih (0 :: done)

/-- **The loop by index is the carry pass**, and no iteration panics. -/
theorem incrementBytes_eq (ipBytes : List UInt8) :
    incrementBytes ipBytes = some (BigEndian.increment ipBytes) := by
  have h := forIn_incrementStep ipBytes []
  rw [List.append_nil, List.append_nil] at h
  rw [incrementBytes, List.range_eq_range']
  exact h

theorem incrementIpChecked_eq (addr : IpAddr) :
    incrementIpChecked addr = some (incrementIp addr) := by
  rw [incrementIpChecked, incrementBytes_eq]
  rfl

/-! ## 2. The midpoint, one operation after the other -/

/-- The arithmetic of either branch of `upper_half_start`. -/
def halfStart {w : Nat} (network broadcast : BitVec w) : Option (BitVec w) := do
  let distance ← Checked.sub broadcast network
  let lower ← Checked.add network (distance / 2)
  Checked.add lower (distance % 2)

/-- `upper_half_start` with the overflow checks. -/
def upperHalfStartChecked : IpAddr → IpAddr → Option IpAddr
  | .v4 network, .v4 broadcast => (halfStart network broadcast).map .v4
  | .v6 network, .v6 broadcast => (halfStart network broadcast).map .v6
  | networkAddr, _ => some networkAddr

theorem toNat_two {w : Nat} (hw : 2 ≤ w) : (2 : BitVec w).toNat = 2 :=
  Nat.mod_eq_of_lt (lt_of_lt_of_le (by norm_num) (Nat.pow_le_pow_right (by norm_num) hw))

/-- **No step of the midpoint overflows**: every sum stays below the upper end. -/
theorem halfStart_spec {w : Nat} {network broadcast : BitVec w} (hw : 2 ≤ w)
    (h : network.toNat ≤ broadcast.toNat) :
    ∃ start, halfStart network broadcast = some start ∧
      start = network + (broadcast - network) / 2 + (broadcast - network) % 2 ∧
      start.toNat = network.toNat + (broadcast.toNat - network.toNat) ⌈/⌉ 2 := by
  have hlast := broadcast.isLt
  have hdistance := Checked.sub_of_le h
  have hd := Checked.sub_eq_some.mp hdistance
  have hhalf : ((broadcast - network) / 2).toNat = (broadcast - network).toNat / 2 := by
    rw [BitVec.toNat_udiv, toNat_two hw]
  have hrest : ((broadcast - network) % 2).toNat = (broadcast - network).toNat % 2 := by
    rw [BitVec.toNat_umod, toNat_two hw]
  have hlower : Checked.add network ((broadcast - network) / 2) =
      some (network + (broadcast - network) / 2) := Checked.add_of_lt (by omega)
  have hl := Checked.add_eq_some.mp hlower
  have hstart : Checked.add (network + (broadcast - network) / 2) ((broadcast - network) % 2) =
      some (network + (broadcast - network) / 2 + (broadcast - network) % 2) :=
    Checked.add_of_lt (by omega)
  have hs := Checked.add_eq_some.mp hstart
  refine ⟨_, ?_, rfl, ?_⟩
  · simp only [halfStart, hdistance, hlower, Option.bind_eq_bind, Option.bind_some]
    exact hstart
  · rw [Nat.ceilDiv_eq_add_pred_div]
    omega

section UpperHalf

variable {network broadcast : IpAddr}

theorem upperHalfStart_spec (hf : network.SameFamily broadcast)
    (hle : network.toNat ≤ broadcast.toNat) :
    upperHalfStartChecked network broadcast = some (upperHalfStart network broadcast) ∧
      (upperHalfStart network broadcast).SameFamily network ∧
      (upperHalfStart network broadcast).toNat =
        network.toNat + (broadcast.toNat - network.toNat) ⌈/⌉ 2 := by
  cases network with
  | v4 n =>
    cases broadcast with
    | v4 b =>
      obtain ⟨start, hstart, rfl, hnumber⟩ := halfStart_spec (by norm_num) hle
      exact ⟨congrArg (Option.map IpAddr.v4) hstart, rfl, hnumber⟩
    | v6 b => cases hf
  | v6 n =>
    cases broadcast with
    | v4 b => cases hf
    | v6 b =>
      obtain ⟨start, hstart, rfl, hnumber⟩ := halfStart_spec (by norm_num) hle
      exact ⟨congrArg (Option.map IpAddr.v6) hstart, rfl, hnumber⟩

/-- Ends of two families have no middle. -/
theorem upperHalfStart_of_not_sameFamily (hf : ¬ network.SameFamily broadcast) :
    upperHalfStartChecked network broadcast = some network ∧
      upperHalfStart network broadcast = network := by
  cases network <;> cases broadcast <;> first | exact ⟨rfl, rfl⟩ | exact absurd rfl hf

/-- **The upper half starts inside the pool.** -/
theorem upperHalfStart_inPool (hf : network.SameFamily broadcast)
    (hle : network.toNat ≤ broadcast.toNat) :
    addressInPool (upperHalfStart network broadcast) network broadcast = true := by
  obtain ⟨-, hfamily, hnumber⟩ := upperHalfStart_spec hf hle
  rw [Nat.ceilDiv_eq_add_pred_div] at hnumber
  exact (addressInPool_iff hf).mpr ⟨hfamily, by omega, by omega⟩

end UpperHalf

/-! ## 3. What both compute -/

theorem addressInPool_network {network broadcast : IpAddr} (h : network.ble broadcast = true) :
    addressInPool network network broadcast = true := by
  have hself : network.ble network = true := (IpAddr.ble_iff rfl).mpr (Nat.le_refl _)
  rw [addressInPool, beq_self_eq_true, hself, h]
  rfl

/-- **Address arithmetic.** Neither function panics in any step. The increment is the successor of
    the octets read as a number, modulo the address space of the family; the upper half of a pool
    starts in the pool, at its first address and half of its distance to the last one, rounded
    up. -/
theorem address_arithmetic :
    (∀ addr : IpAddr, ∃ next,
      incrementIpChecked addr = some (.ok next) ∧ incrementIp addr = .ok next ∧
      next.SameFamily addr ∧ value next.octets = (value addr.octets + 1) % addr.space) ∧
    ∀ network broadcast : IpAddr, network.ble broadcast = true → ∃ start,
      upperHalfStartChecked network broadcast = some start ∧
      upperHalfStart network broadcast = start ∧
      addressInPool start network broadcast = true ∧
      (network.SameFamily broadcast →
        start.SameFamily network ∧ value start.octets =
          value network.octets + (value broadcast.octets - value network.octets) ⌈/⌉ 2) := by
  constructor
  · intro addr
    refine ⟨addr.withNat (addr.toNat + 1), ?_, incrementIp_eq addr,
      IpAddr.sameFamily_withNat _ _, ?_⟩
    · rw [incrementIpChecked_eq, incrementIp_eq]
    · rw [IpAddr.value_octets, IpAddr.value_octets, IpAddr.toNat_withNat_mod]
  · intro network broadcast h
    by_cases hf : network.SameFamily broadcast
    · have hle := (IpAddr.ble_iff hf).mp h
      obtain ⟨hchecked, hfamily, hnumber⟩ := upperHalfStart_spec hf hle
      refine ⟨_, hchecked, rfl, upperHalfStart_inPool hf hle, fun _ => ⟨hfamily, ?_⟩⟩
      simp only [IpAddr.value_octets]
      exact hnumber
    · obtain ⟨hchecked, hstart⟩ := upperHalfStart_of_not_sameFamily hf
      exact ⟨network, hchecked, hstart, addressInPool_network h, fun hsame => absurd hsame hf⟩

/-- 198.18.0.255, the last IPv6 address of all, and the pool of all IPv6 addresses. -/
theorem sample_address_arithmetic :
    (∃ next, incrementIpChecked (.v4 0xC61200FF#32) = some (.ok next) ∧
      value next.octets = 0xC6120100) ∧
    (∃ next, incrementIpChecked (.v6 (BitVec.allOnes 128)) = some (.ok next) ∧
      value next.octets = 0) ∧
    (IpAddr.v6 0).ble (.v6 (BitVec.allOnes 128)) = true ∧
    ∃ start, upperHalfStartChecked (.v6 0) (.v6 (BitVec.allOnes 128)) = some start ∧
      value start.octets = 2 ^ 127 := by
  have hle : (IpAddr.v6 0).ble (.v6 (BitVec.allOnes 128)) = true := by decide
  obtain ⟨next, hnext, -, -, hcarry⟩ := address_arithmetic.1 (.v4 0xC61200FF#32)
  obtain ⟨zero, hzero, -, -, hwrap⟩ := address_arithmetic.1 (.v6 (BitVec.allOnes 128))
  obtain ⟨start, hstart, -, -, hhalf⟩ := address_arithmetic.2 _ _ hle
  simp only [IpAddr.value_octets] at hcarry hwrap hhalf ⊢
  exact ⟨⟨next, hnext, hcarry⟩, ⟨zero, hzero, hwrap⟩, hle, start, hstart, (hhalf rfl).2⟩

end Tun2Proxy
