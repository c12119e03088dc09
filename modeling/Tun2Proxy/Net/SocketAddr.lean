/-
  File:      Tun2Proxy/Net/SocketAddr.lean
  Subject:   Socket addresses, and the text forms of addresses.

  `IpAddr.display` follows the `Display` of the standard library: dotted decimal for V4; for V6
  the IPv4-mapped form, or colon-separated hexadecimal segments with the first longest run of at
  least two zero segments written `::`.
-/
import Tun2Proxy.Net.IpAddr
import Tun2Proxy.Str

namespace Tun2Proxy

/-- `SocketAddr`. A V6 address carries its flow information and scope id. -/
inductive SocketAddr where
  | v4 (ip : BitVec 32) (port : UInt16)
  | v6 (ip : BitVec 128) (port : UInt16) (flowinfo scopeId : UInt32)
  deriving DecidableEq, Repr

namespace SocketAddr

def ip : SocketAddr → IpAddr
  | v4 ip _ => .v4 ip
  | v6 ip _ _ _ => .v6 ip

def port : SocketAddr → UInt16
  | v4 _ port => port
  | v6 _ port _ _ => port

end SocketAddr

/-! ## Text forms -/

def displayDec (n : Nat) : Str := Nat.toDigits 10 n

def displayHex (n : Nat) : Str := Nat.toDigits 16 n

def displayIpv4 (bits : BitVec 32) : Str :=
  List.intercalate ['.'] ((BigEndian.bytes 4 bits.toNat).map fun b => displayDec b.toNat)

/-- The eight 16-bit segments, first one first. -/
def segments (bits : BitVec 128) : List Nat :=
  (List.range 8).map fun i => bits.toNat / 2 ^ (112 - 16 * i) % 2 ^ 16

/-- The span of a run of zero segments: its start and its length. -/
structure Span where
  start : Nat
  len : Nat
  deriving DecidableEq, Repr

/-- The first longest run of zeros: the loop of the standard library over the segments, from
    index `i`. -/
def zeroSpan : List Nat → Nat → Span → Span → Span
  | [], _, longest, _ => longest
  | segment :: rest, i, longest, current =>
    if segment = 0 then
      let current : Span := ⟨if current.len = 0 then i else current.start, current.len + 1⟩
      zeroSpan rest (i + 1) (if longest.len < current.len then current else longest) current
    else zeroSpan rest (i + 1) longest ⟨0, 0⟩

/-- Segments in hexadecimal, with a colon between two. -/
def displaySegments (chunk : List Nat) : Str := List.intercalate [':'] (chunk.map displayHex)

def displayIpv6 (bits : BitVec 128) : Str :=
  if bits.toNat / 2 ^ 32 = 0xffff then
    [':', ':', 'f', 'f', 'f', 'f', ':'] ++ displayIpv4 (BitVec.ofNat 32 bits.toNat)
  else
    let zeroes := zeroSpan (segments bits) 0 ⟨0, 0⟩ ⟨0, 0⟩
    if 1 < zeroes.len then
      displaySegments ((segments bits).take zeroes.start) ++ [':', ':'] ++
        displaySegments ((segments bits).drop (zeroes.start + zeroes.len))
    else displaySegments (segments bits)

def IpAddr.display : IpAddr → Str
  | .v4 bits => displayIpv4 bits
  | .v6 bits => displayIpv6 bits

def SocketAddr.display : SocketAddr → Str
  | .v4 ip port => displayIpv4 ip ++ ':' :: displayDec port.toNat
  | .v6 ip port _ scopeId =>
    let scope := if scopeId = 0 then [] else '%' :: displayDec scopeId.toNat
    '[' :: (displayIpv6 ip ++ scope ++ [']', ':'] ++ displayDec port.toNat)

/-! ## Reading them -/

def readNumber (base : Nat) (s : Str) : Option Nat :=
  if s.isEmpty then none
  else s.foldlM (fun n c =>
    let digit := (List.range base).findIdx fun d => Nat.digitChar d == c.toLower
    if digit < base then some (base * n + digit) else none) 0

/-- `Ipv4Addr::from_str`: four decimal numbers without leading zeros. -/
def readIpv4 (s : Str) : Option (BitVec 32) := do
  let octets ← (s.splitOn '.').mapM fun part =>
    (readNumber 10 part).filter fun n => n < 256 && displayDec n == part
  if octets.length = 4 then some (BitVec.ofNat 32 (octets.foldl (256 * · + ·) 0)) else none

/-- Segments with a colon between two; the last two may be `dotted`. -/
def readSegments (dotted : Bool) (s : Str) : Option (List Nat) := do
  let parts := s.splitOn ':'
  let segment := fun part : Str => if part.length ≤ 4 then readNumber 16 part else none
  let front ← parts.dropLast.mapM segment
  match if dotted then readIpv4 (parts.getLastD []) else none with
  | some bits => some (front ++ [bits.toNat / 2 ^ 16, bits.toNat % 2 ^ 16])
  | none => some (front ++ [← segment (parts.getLastD [])])

/-- The text before and behind the first `::`. -/
def splitElided : Str → Option (Str × Str)
  | ':' :: ':' :: back => some ([], back)
  | c :: rest => (splitElided rest).map fun (front, back) => (c :: front, back)
  | [] => none

/-- `Ipv6Addr::from_str`: eight segments, or fewer of them and one `::`. -/
def readIpv6 (s : Str) : Option (BitVec 128) := do
  let segments ← match splitElided s with
    | none => (readSegments true s).filter (·.length = 8)
    | some (front, back) => do
      let front ← if front.isEmpty then some [] else readSegments false front
      let back ← if back.isEmpty then some [] else readSegments true back
      if front.length + back.length < 8 then
        some (front ++ List.replicate (8 - (front.length + back.length)) 0 ++ back)
      else none
  some (BitVec.ofNat 128 (segments.foldl (2 ^ 16 * · + ·) 0))

def readPort (s : Str) : Option UInt16 := ((readNumber 10 s).filter (· < 2 ^ 16)).map UInt16.ofNat

/-- `SocketAddr::from_str`. -/
def readSocketAddr (s : Str) : Option SocketAddr :=
  match s.splitOn ':', s with
  | [ip, port], _ => do some (.v4 (← readIpv4 ip) (← readPort port))
  | _, '[' :: rest =>
    match rest.splitOn ']' with
    | [address, ':' :: port] =>
      match address.splitOn '%' with
      | [ip] => do some (.v6 (← readIpv6 ip) (← readPort port) 0 0)
      | [ip, scope] => do
        let scopeId ← (readNumber 10 scope).filter (· < 2 ^ 32)
        some (.v6 (← readIpv6 ip) (← readPort port) 0 (UInt32.ofNat scopeId))
      | _ => none
    | _ => none
  | _, _ => none

example : (IpAddr.v4 0xC6130000#32).display =
    ['1', '9', '8', '.', '1', '9', '.', '0', '.', '0'] := by
  decide

example : (IpAddr.v6 0x20010db8000000000000000000000001#128).display =
    ['2', '0', '0', '1', ':', 'd', 'b', '8', ':', ':', '1'] := by
  decide

example : readSocketAddr "[2001:db8::1%4]:53".toList =
    some (.v6 0x20010db8000000000000000000000001#128 53 0 4) := by
  decide +kernel

end Tun2Proxy
