/-
  File:      Tun2Proxy/Net/IpAddr.lean
  Subject:   IP addresses, address pools and the address arithmetic of the fake-IP allocator.

  An `IpAddr` is its family and its number: `Ipv4Addr` and `Ipv6Addr` are the big-endian reading
  of their octets, and the derived order of the standard library (every V4 below every V6, the
  octets compared from the first one on inside a family) is the order of these numbers.

  * `incrementIp`, `upperHalfStart`, `addressInPool` are the source's functions
    (src/virtual_dns.rs); `incrementIp` works on the octets, with the carry loop of the source.
    Net/Arithmetic goes through the steps of the first two, with their overflow checks.
  * `IpCidr` is a pool as the configuration gives it: the host bits are zero by construction.
  * `circular` is the reading of the allocator's scan: the address `k` places after a start
    address, going round the pool. `advance_circular` connects it to the wrap-before-increment
    step of the loop.
-/
import Mathlib.Data.Nat.ModEq
import Tun2Proxy.Lib.BigEndian

namespace Tun2Proxy

/-! ## 1. Errors -/

/-- The kinds of `std::io::Error` the modelled code produces or tests for. -/
inductive ErrorKind where
  | notFound
  | unexpectedEof
  | invalidData
  | invalidInput
  | timedOut
  | addrNotAvailable
  | brokenPipe
  | writeZero
  | unsupported
  | other
  deriving DecidableEq, Repr

/-- The errors of src/error.rs that the modelled functions return. -/
inductive Error where
  | io (kind : ErrorKind) (text : String)
  | tryFromSlice
  | string (text : String)
  deriving DecidableEq, Repr

/-- `std::io::Error::from(kind)`: an error that carries its kind alone. -/
def Error.ofKind (kind : ErrorKind) : Error := .io kind ""

/-! ## 2. Addresses -/

inductive IpAddr where
  | v4 (bits : BitVec 32)
  | v6 (bits : BitVec 128)
  deriving DecidableEq, Repr

namespace IpAddr

def isIpv4 : IpAddr → Bool
  | v4 _ => true
  | v6 _ => false

/-- The address read as a big-endian number. -/
def toNat : IpAddr → Nat
  | v4 a => a.toNat
  | v6 a => a.toNat

/-- How many addresses the family has. -/
def space : IpAddr → Nat
  | v4 _ => 2 ^ 32
  | v6 _ => 2 ^ 128

/-- The address of the same family with the given number. -/
def withNat : IpAddr → Nat → IpAddr
  | v4 _, n => v4 (BitVec.ofNat 32 n)
  | v6 _, n => v6 (BitVec.ofNat 128 n)

/-- `<=` of the derived order: every V4 address is below every V6 address. -/
def ble : IpAddr → IpAddr → Bool
  | v4 a, v4 b => decide (a.toNat ≤ b.toNat)
  | v4 _, v6 _ => true
  | v6 _, v4 _ => false
  | v6 a, v6 b => decide (a.toNat ≤ b.toNat)

def octets : IpAddr → List UInt8
  | v4 a => BigEndian.bytes 4 a.toNat
  | v6 a => BigEndian.bytes 16 a.toNat

/-- `Ipv4Addr::from` of a slice converted to `[u8; 4]`. -/
def ofOctets4 (bytes : List UInt8) : Except Error IpAddr :=
  if bytes.length = 4 then .ok (v4 (BitVec.ofNat 32 (BigEndian.value bytes)))
  else .error .tryFromSlice

/-- `Ipv6Addr::from` of a slice converted to `[u8; 16]`. -/
def ofOctets16 (bytes : List UInt8) : Except Error IpAddr :=
  if bytes.length = 16 then .ok (v6 (BitVec.ofNat 128 (BigEndian.value bytes)))
  else .error .tryFromSlice

/-- Two addresses of one family. -/
def SameFamily (a b : IpAddr) : Prop := a.isIpv4 = b.isIpv4

theorem SameFamily.symm {a b : IpAddr} (h : SameFamily a b) : SameFamily b a := Eq.symm h

theorem SameFamily.trans {a b c : IpAddr} (h : SameFamily a b) (h' : SameFamily b c) :
    SameFamily a c := Eq.trans h h'

theorem SameFamily.space {a b : IpAddr} (h : SameFamily a b) : a.space = b.space := by
  cases a <;> cases b <;> first | rfl | cases h

theorem toNat_lt (a : IpAddr) : a.toNat < a.space := by
  cases a with
  | v4 a => exact a.isLt
  | v6 a => exact a.isLt

/-- Inside a family the number determines the address. -/
theorem toNat_inj {a b : IpAddr} (hf : SameFamily a b) (h : a.toNat = b.toNat) : a = b := by
  cases a <;> cases b <;> first | exact congrArg _ (BitVec.eq_of_toNat_eq h) | cases hf

@[simp] theorem sameFamily_withNat (a : IpAddr) (n : Nat) : SameFamily (a.withNat n) a := by
  cases a <;> rfl

/-- The octets are the number, most significant first. -/
theorem value_octets (a : IpAddr) : BigEndian.value a.octets = a.toNat := by
  cases a with
  | v4 a => exact BigEndian.value_bytes_of_lt (lt_of_lt_of_le a.isLt (by norm_num))
  | v6 a => exact BigEndian.value_bytes_of_lt (lt_of_lt_of_le a.isLt (by norm_num))

theorem toNat_withNat_mod (a : IpAddr) (n : Nat) : (a.withNat n).toNat = n % a.space := by
  cases a with
  | v4 a => exact BitVec.toNat_ofNat n 32
  | v6 a => exact BitVec.toNat_ofNat n 128

theorem toNat_withNat {a : IpAddr} {n : Nat} (h : n < a.space) : (a.withNat n).toNat = n :=
  (toNat_withNat_mod a n).trans (Nat.mod_eq_of_lt h)

theorem ble_iff {a b : IpAddr} (hf : SameFamily a b) : ble a b = true ↔ a.toNat ≤ b.toNat := by
  cases a <;> cases b <;> first | exact decide_eq_true_iff | cases hf

end IpAddr

def isMulticast : IpAddr → Bool
  | .v4 bits => bits.toNat / 2 ^ 28 == 14
  | .v6 bits => bits.toNat / 2 ^ 120 == 255

/-! ## 3. Pools -/

/-- A network in CIDR form. The host bits of the address are zero, as `cidr` enforces. -/
inductive IpCidr where
  | v4 (address : BitVec 32) (len : Nat) (hlen : len ≤ 32)
      (host : address.toNat % 2 ^ (32 - len) = 0)
  | v6 (address : BitVec 128) (len : Nat) (hlen : len ≤ 128)
      (host : address.toNat % 2 ^ (128 - len) = 0)

namespace IpCidr

def firstAddress : IpCidr → IpAddr
  | v4 address _ _ _ => .v4 address
  | v6 address _ _ _ => .v6 address

/-- The network address with every host bit set. -/
def lastAddress : IpCidr → IpAddr
  | v4 address len _ _ => .v4 (address + BitVec.ofNat 32 (2 ^ (32 - len) - 1))
  | v6 address len _ _ => .v6 (address + BitVec.ofNat 128 (2 ^ (128 - len) - 1))

theorem sameFamily (c : IpCidr) : c.firstAddress.SameFamily c.lastAddress := by
  cases c <;> rfl

/-- Setting the host bits of an address with zero host bits does not overflow. -/
theorem toNat_add_host {w len : Nat} {a : BitVec w} (hlen : len ≤ w)
    (host : a.toNat % 2 ^ (w - len) = 0) :
    (a + BitVec.ofNat w (2 ^ (w - len) - 1)).toNat = a.toNat + (2 ^ (w - len) - 1) := by
  have hpos : 0 < 2 ^ (w - len) := Nat.pow_pos (by norm_num)
  obtain ⟨k, hk⟩ := Nat.dvd_of_mod_eq_zero host
  have hsplit : 2 ^ w = 2 ^ (w - len) * 2 ^ len := by rw [← pow_add]; congr 1; omega
  have hlt : 2 ^ (w - len) * k < 2 ^ (w - len) * 2 ^ len := by
    rw [← hk, ← hsplit]; exact a.isLt
  have hk' : k + 1 ≤ 2 ^ len := Nat.lt_of_mul_lt_mul_left hlt
  have hsum : a.toNat + 2 ^ (w - len) ≤ 2 ^ w := by
    calc a.toNat + 2 ^ (w - len) = 2 ^ (w - len) * (k + 1) := by rw [hk]; ring
      _ ≤ 2 ^ (w - len) * 2 ^ len := Nat.mul_le_mul_left _ hk'
      _ = 2 ^ w := hsplit.symm
  have hw : 2 ^ (w - len) ≤ 2 ^ w := Nat.pow_le_pow_right (by norm_num) (Nat.sub_le _ _)
  have hm : (2 ^ (w - len) - 1) % 2 ^ w = 2 ^ (w - len) - 1 := Nat.mod_eq_of_lt (by omega)
  rw [BitVec.toNat_add, BitVec.toNat_ofNat, hm, Nat.mod_eq_of_lt (by omega)]

theorem first_le_last (c : IpCidr) : c.firstAddress.toNat ≤ c.lastAddress.toNat := by
  cases c with
  | v4 a len hlen host =>
    exact le_trans (Nat.le_add_right _ _) (toNat_add_host hlen host).ge
  | v6 a len hlen host =>
    exact le_trans (Nat.le_add_right _ _) (toNat_add_host hlen host).ge

end IpCidr

/-- `address_in_pool`: the family of the pool, and between its two ends. -/
def addressInPool (ip networkAddr broadcastAddr : IpAddr) : Bool :=
  ip.isIpv4 == networkAddr.isIpv4 && networkAddr.ble ip && ip.ble broadcastAddr

theorem addressInPool_iff {ip network broadcast : IpAddr} (hf : network.SameFamily broadcast) :
    addressInPool ip network broadcast = true ↔
      ip.SameFamily network ∧ network.toNat ≤ ip.toNat ∧ ip.toNat ≤ broadcast.toNat := by
  unfold addressInPool
  simp only [Bool.and_eq_true, beq_iff_eq, and_assoc]
  constructor
  · rintro ⟨h1, h2, h3⟩
    exact ⟨h1, (IpAddr.ble_iff (IpAddr.SameFamily.symm h1)).mp h2,
      (IpAddr.ble_iff (IpAddr.SameFamily.trans h1 hf)).mp h3⟩
  · rintro ⟨h1, h2, h3⟩
    exact ⟨h1, (IpAddr.ble_iff (IpAddr.SameFamily.symm h1)).mpr h2,
      (IpAddr.ble_iff (IpAddr.SameFamily.trans h1 hf)).mpr h3⟩

/-! ## 4. Address arithmetic -/

/-- `VirtualDns::increment_ip`: the carry loop over the octets, then back to an address. -/
def incrementIp (addr : IpAddr) : Except Error IpAddr :=
  let ipBytes := BigEndian.increment addr.octets
  if addr.isIpv4 then IpAddr.ofOctets4 ipBytes else IpAddr.ofOctets16 ipBytes

/-- `upper_half_start`: the first address of the upper half of the pool. -/
def upperHalfStart : IpAddr → IpAddr → IpAddr
  | .v4 network, .v4 broadcast =>
    let distance := broadcast - network
    .v4 (network + distance / 2 + distance % 2)
  | .v6 network, .v6 broadcast =>
    let distance := broadcast - network
    .v6 (network + distance / 2 + distance % 2)
  | networkAddr, _ => networkAddr

/-- Truncating to `k` octets before the truncation to `8 * k` bits changes nothing. -/
theorem ofNat_mod_octets (k n : Nat) :
    BitVec.ofNat (8 * k) (n % 256 ^ k) = BitVec.ofNat (8 * k) n := by
  have e : 2 ^ (8 * k) = 256 ^ k := by rw [pow_mul]; norm_num
  apply BitVec.eq_of_toNat_eq
  rw [BitVec.toNat_ofNat, BitVec.toNat_ofNat, e, Nat.mod_mod]

/-- **The increment always succeeds and is the successor**, modulo the address space. -/
theorem incrementIp_eq (addr : IpAddr) :
    incrementIp addr = .ok (addr.withNat (addr.toNat + 1)) := by
  have hv := addr.value_octets
  cases addr with
  | v4 a =>
    simp only [IpAddr.octets, IpAddr.toNat] at hv
    simp only [incrementIp, IpAddr.isIpv4, IpAddr.octets, IpAddr.ofOctets4, if_true,
      BigEndian.length_increment, BigEndian.length_bytes, BigEndian.value_increment, hv]
    exact congrArg (fun x => Except.ok (IpAddr.v4 x)) (ofNat_mod_octets 4 (a.toNat + 1))
  | v6 a =>
    simp only [IpAddr.octets, IpAddr.toNat] at hv
    simp only [incrementIp, IpAddr.isIpv4, IpAddr.octets, IpAddr.ofOctets16, if_true,
      Bool.false_eq_true, if_false, BigEndian.length_increment, BigEndian.length_bytes,
      BigEndian.value_increment, hv]
    exact congrArg (fun x => Except.ok (IpAddr.v6 x)) (ofNat_mod_octets 16 (a.toNat + 1))

/-! ## 5. Going round a pool -/

/-- The number of addresses of a pool. -/
def poolSize (network broadcast : IpAddr) : Nat := broadcast.toNat - network.toNat + 1

/-- The address `k` places after `start`, going round the pool. -/
def circular (network broadcast start : IpAddr) (k : Nat) : IpAddr :=
  network.withNat (network.toNat +
    (start.toNat - network.toNat + k) % poolSize network broadcast)

/-- The wrap-before-increment step of the allocator's loop. -/
def advance (network broadcast addr : IpAddr) : Except Error IpAddr :=
  if addr = broadcast then .ok network else incrementIp addr

theorem sameFamily_circular (network broadcast start : IpAddr) (k : Nat) :
    (circular network broadcast start k).SameFamily network := IpAddr.sameFamily_withNat _ _

/-- After a whole round the scan is where it was. -/
theorem circular_poolSize (network broadcast start : IpAddr) :
    circular network broadcast start (poolSize network broadcast) =
      circular network broadcast start 0 := by
  unfold circular
  rw [Nat.add_mod_right, Nat.add_zero]

section Circular

variable {network broadcast : IpAddr} (hf : network.SameFamily broadcast)
  (hle : network.toNat ≤ broadcast.toNat)

include hf hle

theorem circular_offset_lt (start : IpAddr) (k : Nat) :
    network.toNat + (start.toNat - network.toNat + k) % poolSize network broadcast <
      network.space := by
  have h1 : broadcast.toNat < network.space := hf.space ▸ broadcast.toNat_lt
  have h2 : (start.toNat - network.toNat + k) % poolSize network broadcast <
      poolSize network broadcast := Nat.mod_lt _ (Nat.succ_pos _)
  unfold poolSize at h2 ⊢
  omega

theorem toNat_circular (start : IpAddr) (k : Nat) :
    (circular network broadcast start k).toNat =
      network.toNat + (start.toNat - network.toNat + k) % poolSize network broadcast :=
  IpAddr.toNat_withNat (circular_offset_lt hf hle start k)

theorem circular_inPool (start : IpAddr) (k : Nat) :
    addressInPool (circular network broadcast start k) network broadcast = true := by
  have h2 : (start.toNat - network.toNat + k) % poolSize network broadcast <
      poolSize network broadcast := Nat.mod_lt _ (Nat.succ_pos _)
  rw [addressInPool_iff hf, toNat_circular hf hle]
  unfold poolSize at h2 ⊢
  exact ⟨IpAddr.sameFamily_withNat _ _, Nat.le_add_right _ _, by omega⟩

/-- Zero places on is the start itself. -/
theorem circular_zero {start : IpAddr} (hs : addressInPool start network broadcast = true) :
    circular network broadcast start 0 = start := by
  obtain ⟨h1, h2, h3⟩ := (addressInPool_iff hf).mp hs
  apply IpAddr.toNat_inj ((sameFamily_circular _ _ _ _).trans h1.symm)
  rw [toNat_circular hf hle, Nat.add_zero, Nat.mod_eq_of_lt (by unfold poolSize; omega)]
  omega

/-- **One step of the loop is one place further round the pool.** -/
theorem advance_circular (start : IpAddr) (k : Nat) :
    advance network broadcast (circular network broadcast start k) =
      .ok (circular network broadcast start (k + 1)) := by
  have hN := toNat_circular hf hle start k
  have hS := toNat_circular hf hle start (k + 1)
  have hlt : (start.toNat - network.toNat + k) % poolSize network broadcast <
      poolSize network broadcast := Nat.mod_lt _ (Nat.succ_pos _)
  have hstep : (start.toNat - network.toNat + (k + 1)) % poolSize network broadcast =
      ((start.toNat - network.toNat + k) % poolSize network broadcast + 1) %
        poolSize network broadcast := by rw [← Nat.add_assoc, Nat.mod_add_mod]
  unfold advance
  by_cases hb : circular network broadcast start k = broadcast
  · -- the last address of the pool: back to the first one
    rw [if_pos hb]
    congr 1
    apply IpAddr.toNat_inj (sameFamily_circular network broadcast start (k + 1)).symm
    have hfull : (start.toNat - network.toNat + k) % poolSize network broadcast + 1 =
        poolSize network broadcast := by
      rw [hb] at hN
      unfold poolSize at hN ⊢
      omega
    rw [hS, hstep, hfull, Nat.mod_self, Nat.add_zero]
  · rw [if_neg hb, incrementIp_eq]
    congr 1
    have hne : (circular network broadcast start k).toNat ≠ broadcast.toNat := fun h =>
      hb (IpAddr.toNat_inj ((sameFamily_circular _ _ _ _).trans hf) h)
    have hlt' : (start.toNat - network.toNat + k) % poolSize network broadcast + 1 <
        poolSize network broadcast := by
      unfold poolSize at hN hlt ⊢
      omega
    have hfam := sameFamily_circular network broadcast start k
    apply IpAddr.toNat_inj (((IpAddr.sameFamily_withNat _ _).trans hfam).trans
      (sameFamily_circular network broadcast start (k + 1)).symm)
    rw [hS, hstep, Nat.mod_eq_of_lt hlt', IpAddr.toNat_withNat, hN]
    · omega
    · rw [hfam.space, hN]
      have h1 := circular_offset_lt hf hle start (k + 1)
      rw [hstep, Nat.mod_eq_of_lt hlt'] at h1
      omega

/-- Every pool address is met within one round. -/
theorem exists_circular {start a : IpAddr} (hs : addressInPool start network broadcast = true)
    (ha : addressInPool a network broadcast = true) :
    ∃ k < poolSize network broadcast, circular network broadcast start k = a := by
  obtain ⟨h1, h2, h3⟩ := (addressInPool_iff hf).mp hs
  obtain ⟨g1, g2, g3⟩ := (addressInPool_iff hf).mp ha
  have hsame (k : Nat) : (circular network broadcast start k).SameFamily a :=
    (sameFamily_circular _ _ _ _).trans g1.symm
  by_cases h : start.toNat ≤ a.toNat
  · refine ⟨a.toNat - start.toNat, by unfold poolSize; omega, IpAddr.toNat_inj (hsame _) ?_⟩
    rw [toNat_circular hf hle, Nat.mod_eq_of_lt (by unfold poolSize; omega)]
    omega
  · refine ⟨poolSize network broadcast + a.toNat - start.toNat, by unfold poolSize; omega,
      IpAddr.toNat_inj (hsame _) ?_⟩
    have e : start.toNat - network.toNat +
        (poolSize network broadcast + a.toNat - start.toNat) =
        a.toNat - network.toNat + poolSize network broadcast := by
      unfold poolSize; omega
    rw [toNat_circular hf hle, e, Nat.add_mod_right, Nat.mod_eq_of_lt (by unfold poolSize; omega)]
    omega

/-- Going on from a place of the scan is going on in the scan. -/
theorem circular_circular (start : IpAddr) (k j : Nat) :
    circular network broadcast (circular network broadcast start k) j =
      circular network broadcast start (k + j) := by
  have h := toNat_circular hf hle start k
  have e : (circular network broadcast start k).toNat - network.toNat =
      (start.toNat - network.toNat + k) % poolSize network broadcast := by omega
  show network.withNat _ = network.withNat _
  rw [e, Nat.mod_add_mod, Nat.add_assoc]

/-- The places before the round is complete are pairwise different. -/
theorem circular_inj {start : IpAddr} {j k : Nat} (hj : j < poolSize network broadcast)
    (hk : k < poolSize network broadcast)
    (h : circular network broadcast start j = circular network broadcast start k) : j = k := by
  have e := congrArg IpAddr.toNat h
  rw [toNat_circular hf hle, toNat_circular hf hle] at e
  have e' : (start.toNat - network.toNat + j) % poolSize network broadcast =
      (start.toNat - network.toNat + k) % poolSize network broadcast := by omega
  exact Nat.ModEq.eq_of_lt_of_lt (Nat.ModEq.add_left_cancel' _ e') hj hk

end Circular

end Tun2Proxy
