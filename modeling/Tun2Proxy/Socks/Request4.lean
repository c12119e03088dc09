/-
  File:      Tun2Proxy/Socks/Request4.lean
  Subject:   What a SOCKS4a server reads of the request (`send_client_hello_socks4`, src/socks.rs).

  SOCKS4a puts a domain behind the user id and marks it by an address `0.0.0.x` with `x` not zero.
  The client takes the low byte of the domain's length for `x`. The domains it has come from the
  fake-IP resolver, and there from the texts of names in wire form (`ResolvedName`), of which
  escapes make some longer than 255 bytes.
-/
import Tun2Proxy.Socks.Soundness
import Tun2Proxy.VirtualDns.Query

namespace Tun2Proxy

open BigEndian

/-! ## 1. The server's reading -/

inductive Socks4Destination where
  | address (ip : BitVec 32)
  | domain (name : List UInt8)
  deriving DecidableEq, Repr

structure Socks4Request where
  port : UInt16
  destination : Socks4Destination
  userId : List UInt8
  deriving DecidableEq, Repr

/-- The bytes before the first NUL, and those behind it. -/
def takeNul : List UInt8 → Option (List UInt8 × List UInt8)
  | [] => none
  | b :: rest =>
    if b = 0 then some ([], rest)
    else
      match takeNul rest with
      | none => none
      | some (text, rest) => some (b :: text, rest)

/-- The SOCKS4a request for a connection, and what is left behind it. -/
def parseSocks4a : List UInt8 → Option (Socks4Request × List UInt8)
  | version :: command :: p :: q :: a :: b :: c :: d :: rest =>
    if version = 4 ∧ command = 1 then
      let port := UInt16.ofNat (value [p, q])
      match takeNul rest with
      | none => none
      | some (userId, rest) =>
        if a = 0 ∧ b = 0 ∧ c = 0 ∧ d ≠ 0 then
          match takeNul rest with
          | none => none
          | some (name, rest) => some (⟨port, .domain name, userId⟩, rest)
        else some (⟨port, .address (BitVec.ofNat 32 (value [a, b, c, d])), userId⟩, rest)
    else none
  | _ => none

theorem takeNul_append {text : List UInt8} (h : 0 ∉ text) (rest : List UInt8) :
    takeNul (text ++ 0 :: rest) = some (text, rest) := by
  induction text with
  | nil => rfl
  | cons b text ih =>
    obtain ⟨hb, htext⟩ := not_or.mp (List.mem_cons.not.mp h)
    rw [List.cons_append, takeNul, if_neg (Ne.symm hb), ih htext]

/-- A request is read up to its user id, whatever stands behind. -/
theorem parseSocks4a_header (port : UInt16) (a b c d : UInt8) {user : List UInt8} (huser : 0 ∉ user)
    (tail : List UInt8) :
    parseSocks4a ([4, 1] ++ bytes 2 port.toNat ++ [a, b, c, d] ++ user ++ [0] ++ tail) =
      if a = 0 ∧ b = 0 ∧ c = 0 ∧ d ≠ 0 then
        match takeNul tail with
        | none => none
        | some (name, rest) => some (⟨port, .domain name, user⟩, rest)
      else some (⟨port, .address (BitVec.ofNat 32 (value [a, b, c, d])), user⟩, tail) := by
  obtain ⟨p, q, hport⟩ := List.length_eq_two.mp (length_bytes 2 port.toNat)
  have hvalue : UInt16.ofNat (value [p, q]) = port := by
    rw [← hport, value_bytes_of_lt port.toNat_lt, UInt16.ofNat_toNat]
  have hread : takeNul (user ++ [0] ++ tail) = some (user, tail) := by
    rw [List.append_assoc]
    exact takeNul_append huser tail
  have hshape : [4, 1] ++ bytes 2 port.toNat ++ [a, b, c, d] ++ user ++ [0] ++ tail =
      4 :: 1 :: p :: q :: a :: b :: c :: d :: (user ++ [0] ++ tail) := by
    rw [hport]
    simp
  rw [hshape, parseSocks4a, if_pos ⟨rfl, rfl⟩]
  simp only [hread, hvalue]

/-! ## 2. Domains that the resolver returns -/

section Names

variable {Name Signature Rest : Type}

/-- `to_ascii` escapes every byte that is no printable character. -/
def PrintableNames (dns : HickoryServer Name Signature Rest) : Prop :=
  ∀ name, ∀ c ∈ dns.toAscii name, 0x20 < c.toNat ∧ c.toNat < 0x7f

/-- A name that `resolve_ip` returns for an address with which a query was answered. -/
def ResolvedName (dns : HickoryServer Name Signature Rest) (codec : RecordCodec) (pool : IpCidr)
    (host : Str) : Prop :=
  ∃ uses w fuel data bytes qname ip w', Reachable codec pool uses w ∧
    generateQuery dns codec fuel data w = some (.ok (bytes, qname, some ip) w') ∧
    (w'.dns.resolveIp ip).1 = some host

variable {dns : HickoryServer Name Signature Rest} {codec : RecordCodec} {pool : IpCidr}
  {host : Str}

/-- It is the canonical text of the name asked for. -/
theorem ResolvedName.text (h : ResolvedName dns codec pool host) :
    ∃ name, host = (VirtualDns.new pool).canonicalName (dns.toAscii name) := by
  obtain ⟨uses, w, fuel, data, bytes, qname, ip, w', hw, hquery, hresolve⟩ := h
  have ht := reachable_fakeIpTable codec hw
  obtain ⟨name, rfl⟩ := (generateQuery_some hquery).1
  have hpeek := (generateQuery_mapped ht hquery).2
  have hget : (w'.dns.resolveIp ip).1 = w'.dns.lruCache.peek ip := rfl
  rw [hget, hpeek] at hresolve
  cases hresolve
  exact ⟨name, by rw [ht.settings.canonicalName]⟩

theorem toLower_ne_nul {c : Char} (h : c.toNat ≠ 0) : c.toLower.toNat ≠ 0 := by
  unfold Char.toLower
  split
  · rename_i hcapital
    intro hzero
    have hle : c.val.toNat ≤ 90 := hcapital.2
    have hsum : (c.val + 32).toNat = 0 := hzero
    rw [UInt32.toNat_add, show (32 : UInt32).toNat = 32 from rfl] at hsum
    omega
  · exact h

/-- A text without NUL has none after `canonical_name`. -/
theorem nul_not_mem_canonicalName (v : VirtualDns) {text : Str} (h : ∀ c ∈ text, c.toNat ≠ 0) :
    0 ∉ (v.canonicalName text).asBytes := by
  intro hmem
  obtain ⟨c, hc, hbyte⟩ := List.mem_flatMap.mp hmem
  have hzero : c.toNat = 0 := Json.toNat_of_mem_utf8EncodeChar (by decide) hbyte
  obtain ⟨c', hc', rfl⟩ := List.mem_map.mp hc
  have hin : c' ∈ text := by
    split at hc'
    · exact (List.rdropWhile_prefix _ _).subset hc'
    · exact hc'
  exact toLower_ne_nul (h c' hin) hzero

theorem ResolvedName.nul_not_mem (h : ResolvedName dns codec pool host)
    (hprint : PrintableNames dns) : 0 ∉ host.asBytes := by
  obtain ⟨name, rfl⟩ := h.text
  refine nul_not_mem_canonicalName _ fun c hc hzero => ?_
  have := (hprint name c hc).1
  omega

end Names

/-! ## 3. The request -/

namespace SocksConfig

/-- What the request is for. -/
def socks4Destination (self : SocksConfig) (ip : BitVec 32) : Socks4Destination :=
  match self.domainName with
  | some host => .domain host.asBytes
  | none => .address ip

/-- The user id of the request, empty without credentials. -/
def socks4UserId (self : SocksConfig) : List UInt8 := (self.credentials.map userId).getD []

variable {self : SocksConfig} {ip : BitVec 32} {port : UInt16}

theorem clientHelloSocks4_domain {host : Str} (hversion : self.version = .V4)
    (hdst : self.info.dst = .v4 ip port) (hdomain : self.domainName = some host) :
    self.clientHelloSocks4 = .ok ([4, 1] ++ bytes 2 port.toNat ++
      [0, 0, 0, UInt8.ofNat host.len] ++ self.socks4UserId ++ [0] ++ (host.asBytes ++ [0])) := by
  unfold clientHelloSocks4
  rw [hversion, hdst, hdomain]
  rfl

theorem clientHelloSocks4_address (hversion : self.version = .V4)
    (hdst : self.info.dst = .v4 ip port) (hdomain : self.domainName = none) :
    self.clientHelloSocks4 = .ok ([4, 1] ++ bytes 2 port.toNat ++ bytes 4 ip.toNat ++
      self.socks4UserId ++ [0] ++ []) := by
  unfold clientHelloSocks4
  rw [hversion, hdst, hdomain]
  rfl

theorem nul_not_mem_socks4UserId
    (h : ∀ c, self.credentials = some c → 0 ∉ c.username.asBytes ∧ 0 ∉ c.password.asBytes) :
    0 ∉ self.socks4UserId := by
  unfold socks4UserId
  cases hcred : self.credentials with
  | none => exact List.not_mem_nil
  | some c =>
    obtain ⟨huser, hpassword⟩ := h c hcred
    simp only [Option.map_some, Option.getD_some, userId, List.mem_append, not_or]
    refine ⟨huser, ?_⟩
    split
    · exact List.not_mem_nil
    · exact fun hmem => (List.mem_cons.mp hmem).elim (by decide) hpassword

/-- The low byte of a length is zero only for multiples of 256. -/
theorem lowByte_eq_zero {n : Nat} : UInt8.ofNat n = 0 ↔ n % 256 = 0 := by
  rw [← UInt8.toNat_inj, UInt8.toNat_ofNat']
  rfl

/-- A domain is read back whole, unless its length is a multiple of 256: then the server takes the
    address `0.0.0.0`, and the domain is left behind the request. -/
theorem parse_domain {host : Str} (hversion : self.version = .V4)
    (hdst : self.info.dst = .v4 ip port) (hdomain : self.domainName = some host)
    (huser : 0 ∉ self.socks4UserId) (hhost : 0 ∉ host.asBytes) :
    ∃ hello, self.clientHelloSocks4 = .ok hello ∧
      parseSocks4a hello =
        if host.len % 256 = 0 then
          some (⟨port, .address 0, self.socks4UserId⟩, host.asBytes ++ [0])
        else some (⟨port, .domain host.asBytes, self.socks4UserId⟩, []) := by
  refine ⟨_, clientHelloSocks4_domain hversion hdst hdomain, ?_⟩
  rw [parseSocks4a_header _ _ _ _ _ huser]
  by_cases hlen : host.len % 256 = 0
  · rw [if_pos hlen, lowByte_eq_zero.mpr hlen]
    rfl
  · rw [if_neg hlen, if_pos ⟨rfl, rfl, rfl, fun hzero => hlen (lowByte_eq_zero.mp hzero)⟩,
      takeNul_append hhost []]

/-- An address that cannot be taken for a marker is read back. -/
theorem parse_address (hversion : self.version = .V4) (hdst : self.info.dst = .v4 ip port)
    (hdomain : self.domainName = none) (huser : 0 ∉ self.socks4UserId) (hip : 256 ≤ ip.toNat) :
    ∃ hello, self.clientHelloSocks4 = .ok hello ∧
      parseSocks4a hello = some (⟨port, .address ip, self.socks4UserId⟩, []) := by
  refine ⟨_, clientHelloSocks4_address hversion hdst hdomain, ?_⟩
  have hvalue : value (bytes 4 ip.toNat) = ip.toNat := value_bytes_of_lt ip.isLt
  have hlength := length_bytes 4 ip.toNat
  match hbytes : bytes 4 ip.toNat, hlength with
  | [a, b, c, d], _ =>
    rw [hbytes] at hvalue
    have hnot : ¬ (a = 0 ∧ b = 0 ∧ c = 0 ∧ d ≠ 0) := by
      rintro ⟨rfl, rfl, rfl, -⟩
      have hsmall : value [0, 0, 0, d] = d.toNat := by simp [value]
      rw [hsmall] at hvalue
      have := d.toNat_lt
      omega
    rw [parseSocks4a_header _ _ _ _ _ huser, if_neg hnot, hvalue, BitVec.ofNat_toNat,
      BitVec.setWidth_eq]

/-- **The request is decodable** unless it is for a domain whose length is a multiple of 256: for
    every port, every credentials without NUL, and every address outside `0.0.0.0/24` or domain from
    the resolver, a SOCKS4a server reads the port, the destination and the user id, and nothing is
    left, exactly if there is no such domain. -/
theorem socks4_request_decodes {Name Signature Rest : Type}
    (dns : HickoryServer Name Signature Rest) (hprint : PrintableNames dns) (codec : RecordCodec)
    (pool : IpCidr) (self : SocksConfig) (ip : BitVec 32) (port : UInt16)
    (hversion : self.version = .V4) (hdst : self.info.dst = .v4 ip port)
    (hcred : ∀ c, self.credentials = some c → 0 ∉ c.username.asBytes ∧ 0 ∉ c.password.asBytes)
    (hdest : (self.domainName = none ∧ 256 ≤ ip.toNat) ∨
      ∃ host, self.domainName = some host ∧ ResolvedName dns codec pool host) :
    (∃ hello, self.clientHelloSocks4 = .ok hello ∧
      parseSocks4a hello =
        some (⟨port, self.socks4Destination ip, self.socks4UserId⟩, [])) ↔
      ∀ host, self.domainName = some host → host.len % 256 ≠ 0 := by
  have huser := nul_not_mem_socks4UserId hcred
  rcases hdest with ⟨hdomain, hip⟩ | ⟨host, hdomain, hname⟩
  · rw [socks4Destination, hdomain]
    exact ⟨fun _ => nofun, fun _ => parse_address hversion hdst hdomain huser hip⟩
  · obtain ⟨hello, hhello, hparse⟩ :=
      parse_domain hversion hdst hdomain huser (hname.nul_not_mem hprint)
    rw [socks4Destination, hdomain]
    constructor
    · rintro ⟨hello', hhello', hparse'⟩ _ ⟨⟩ hlen
      cases hhello.symm.trans hhello'
      rw [if_pos hlen] at hparse
      cases hparse.symm.trans hparse'
    · intro hlen
      rw [if_neg (hlen host rfl)] at hparse
      exact ⟨hello, hhello, hparse⟩

end SocksConfig

/-! ## 4. Names of 256 bytes -/

theorem toNat_ofNat_byte {n : Nat} (h : n < 256) : (Char.ofNat n).toNat = n := by
  have hvalid : n.isValidChar := .inl (Nat.lt_trans h (by decide))
  rw [Char.ofNat, dif_pos hvalid]
  rfl

/-- What stands for itself or behind a backslash is printable. -/
theorem printable_of_safe {byte : UInt8} {isFirst : Bool}
    (h : WireName.isSafeAscii byte isFirst = true) : 0x20 < byte.toNat ∧ byte.toNat < 0x7f := by
  simp only [WireName.isSafeAscii, Bool.or_eq_true, Bool.and_eq_true, decide_eq_true_eq,
    beq_iff_eq, UInt8.le_iff_toNat_le, ← UInt8.toNat_inj] at h
  change (((((48 ≤ byte.toNat ∧ byte.toNat ≤ 57) ∨ (65 ≤ byte.toNat ∧ byte.toNat ≤ 90)) ∨
    (97 ≤ byte.toNat ∧ byte.toNat ≤ 122)) ∨ (byte.toNat = 45 ∧ _)) ∨ byte.toNat = 95) ∨
    (byte.toNat = 42 ∧ _) at h
  omega

theorem octalDigit_printable (n : Nat) :
    0x20 < (WireName.octalDigit n).toNat ∧ (WireName.octalDigit n).toNat < 0x7f := by
  have hdigit := Nat.mod_lt n (by decide : 0 < 8)
  rw [WireName.octalDigit, toNat_ofNat_byte (by omega)]
  omega

theorem escapeByte_printable (isFirst : Bool) (byte : UInt8) :
    ∀ c ∈ WireName.escapeByte isFirst byte, 0x20 < c.toNat ∧ c.toNat < 0x7f := by
  have hslash : 0x20 < '\\'.toNat ∧ '\\'.toNat < 0x7f := by decide
  have hbyte := toNat_ofNat_byte byte.toNat_lt
  unfold WireName.escapeByte
  split
  · rename_i hsafe
    simp only [List.forall_mem_singleton, hbyte]
    exact printable_of_safe hsafe
  · split
    · rename_i hvisible
      rw [Bool.and_eq_true, decide_eq_true_eq, decide_eq_true_eq] at hvisible
      simp only [List.forall_mem_cons, hbyte]
      exact ⟨hslash, ⟨hvisible.1, hvisible.2⟩, nofun⟩
    · simp only [List.forall_mem_cons]
      exact ⟨hslash, octalDigit_printable _, octalDigit_printable _, octalDigit_printable _, nofun⟩

theorem labelText_printable (label : List UInt8) :
    ∀ c ∈ WireName.labelText label, 0x20 < c.toNat ∧ c.toNat < 0x7f := by
  intro c hc
  cases label with
  | nil => cases hc
  | cons byte rest =>
    rcases List.mem_append.mp hc with hc | hc
    · exact escapeByte_printable true byte c hc
    · obtain ⟨b, -, hc⟩ := List.mem_flatMap.mp hc
      exact escapeByte_printable false b c hc

theorem wireServer_printable : PrintableNames wireServer := by
  intro asked c hc
  have hdot : ∀ c ∈ ['.'], 0x20 < c.toNat ∧ c.toNat < 0x7f :=
    List.forall_mem_singleton.mpr (by decide)
  change c ∈ asked.toAscii at hc
  unfold WireName.toAscii at hc
  split at hc
  · exact hdot c hc
  · obtain ⟨label, -, hc⟩ := List.mem_flatMap.mp hc
    rcases List.mem_append.mp hc with hc | hc
    · exact labelText_printable label c hc
    · exact hdot c hc

/-- A new resolver answers a question for any name that hickory reads and can answer, and returns
    the name for the address. -/
theorem wireServer_resolvedName (codec : RecordCodec) {name : WireName}
    (hread : wireNames.fromVec (addressQuestion 7 0x0100 name) =
      .ok (addressMessage 7 .query name))
    (hwrite : (wireNames.toVec (addressAnswer 7 name 0xC6120000#32)).isOk = true) :
    ResolvedName wireServer codec samplePool
      ((VirtualDns.new samplePool).canonicalName name.toAscii) := by
  obtain ⟨w, hw, hpeek⟩ : ∃ w, addressFor codec 2 RECORD_TYPE_A name.toAscii
        ⟨VirtualDns.new samplePool, sampleDisk⟩ = some (.ok (some (.v4 0xC6120000#32)) w) ∧
      w.dns.lruCache.peek (.v4 0xC6120000#32) =
        some ((VirtualDns.new samplePool).canonicalName name.toAscii) := ⟨_, rfl, rfl⟩
  obtain ⟨bytes, hquery⟩ := generateQuery_question 7 hw hread hwrite
  exact ⟨[], _, 2, _, bytes, _, _, w, .new _, hquery, hpeek⟩

/-- A label of 63 bytes that are not printable, four characters each, and `abc`. -/
def longWireName : WireName where
  labels := [List.replicate 63 1, [97, 98, 99]]
  labelSizes := by decide
  size := by decide

/-- The text of the long name without its final dot. -/
def longHost : Str := (VirtualDns.new samplePool).canonicalName longWireName.toAscii

set_option maxRecDepth 8000 in
theorem longHost_len : longHost.len = 256 := by decide +kernel

theorem sampleSocks_noNul (domain : Option Str) :
    ∀ c, ({ sampleSocks .V4 with domainName := domain }).credentials = some c →
      0 ∉ c.username.asBytes ∧ 0 ∉ c.password.asBytes := by
  intro c hc
  cases hc
  decide

/-- A domain from the resolver whose length is 256: the server connects to `0.0.0.0`, and takes the
    domain for what the client sends through the connection. -/
theorem long_domain_unmarked :
    ResolvedName wireServer Json.jsonCodec samplePool longHost ∧
      longHost.len = 256 ∧
      ∃ hello, ({ sampleSocks .V4 with domainName := some longHost }).clientHelloSocks4 =
          .ok hello ∧
        parseSocks4a hello =
          some (⟨22, .address 0, SocksConfig.userId ⟨['m', 'e'], ['p', 'w']⟩⟩,
            longHost.asBytes ++ [0]) := by
  have hname : ResolvedName wireServer Json.jsonCodec samplePool longHost :=
    wireServer_resolvedName Json.jsonCodec (by decide +kernel) (by decide +kernel)
  have huser := SocksConfig.nul_not_mem_socks4UserId (sampleSocks_noNul (some longHost))
  have hread := SocksConfig.parse_domain rfl rfl rfl huser (hname.nul_not_mem wireServer_printable)
  rw [longHost_len, if_pos rfl] at hread
  exact ⟨hname, longHost_len, hread⟩

theorem sample_socks4_request_decodes :
    ∃ hello, ({ sampleSocks .V4 with
          domainName := some ((VirtualDns.new samplePool).canonicalName
            exampleWireName.toAscii) }).clientHelloSocks4 = .ok hello ∧
      parseSocks4a hello =
        some (⟨22, .domain (Str.asBytes "a.example".toList),
          SocksConfig.userId ⟨['m', 'e'], ['p', 'w']⟩⟩, []) :=
  (SocksConfig.socks4_request_decodes wireServer wireServer_printable Json.jsonCodec samplePool
    { sampleSocks .V4 with
      domainName := some ((VirtualDns.new samplePool).canonicalName exampleWireName.toAscii) }
    0xCB007109#32 22 rfl rfl (sampleSocks_noNul _)
    (.inr ⟨_, rfl, wireServer_resolvedName Json.jsonCodec (by decide +kernel)
      (by decide +kernel)⟩)).mpr (by rintro _ ⟨⟩; decide)

end Tun2Proxy
