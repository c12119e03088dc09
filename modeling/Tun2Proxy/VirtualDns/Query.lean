/-
  File:      Tun2Proxy/VirtualDns/Query.lean
  Subject:   DNS queries to the fake-IP resolver (`generate_query`, src/virtual_dns.rs).

  A query carries a name in wire form; the resolver works on the text hickory makes of it. Labels
  may have any bytes, so the text has escapes and may be longer than the wire form, and the root is
  a single dot, of which nothing is left after `canonical_name`.

  The allocator takes every text, but `restore_mapping` takes non-empty ones of at most 253 bytes
  only: the two agree exactly on the names between (`answered_mapping_restored`).
-/
import Tun2Proxy.Dns.Wire
import Tun2Proxy.VirtualDns.Faults

namespace Tun2Proxy

/-! ## 1. Answers to a query -/

/-- `RecordType::A`. -/
def RECORD_TYPE_A : UInt16 := 1

/-- What answering a query uses of hickory. -/
structure HickoryServer (Name Signature Rest : Type) extends HickoryNames Name Signature Rest where
  intoResponse : DnsResponse Name Signature Rest → DnsResponse Name Signature Rest

section Answers

variable {Name Signature Rest : Type} (dns : HickoryServer Name Signature Rest)

/-- The record of an answer, if the address is of the family asked for. -/
def answerRecord (query : Query Name) (ip : Option IpAddr) (ttl : UInt32) :
    Option (DnsRecord Name) :=
  match ip with
  | some (.v4 ip) =>
    if query.queryType = RECORD_TYPE_A then some ⟨query.name, ttl, query.queryClass, .a ip⟩
    else none
  | some (.v6 ip) =>
    if query.queryType = RECORD_TYPE_AAAA then
      some ⟨query.name, ttl, query.queryClass, .aaaa ip⟩
    else none
  | none => none

def buildDnsResponse (request : DnsResponse Name Signature Rest) (ip : Option IpAddr)
    (ttl : UInt32) : Except String (DnsResponse Name Signature Rest) :=
  match validateDnsQuery request with
  | .error e => .error e
  | .ok query =>
    let record := answerRecord query ip ttl
    let request := dns.intoResponse request
    .ok
      { answers := record.toList
        authorities := []
        additionals := []
        authenticData := false
        signature := none
        rest :=
          { request.rest with
            rest :=
              { request.rest.rest with
                authoritative := false
                truncation := false
                recursionAvailable := true
                responseCode := .noError } } }

def extractDomainFromDnsMessage (message : DnsResponse Name Signature Rest) : Except String Str :=
  match message.rest.queries with
  | query :: _ => .ok (dns.toAscii query.name)
  | [] => .error "DnsRequest no query body"

/-- Whether the question is for addresses of the pool's family. -/
def asksForFamily (queryType : UInt16) : IpAddr → Bool
  | .v4 _ => queryType == RECORD_TYPE_A
  | .v6 _ => queryType == RECORD_TYPE_AAAA

/-- The address of `generate_query`. -/
def addressFor (codec : RecordCodec) (fuel : Nat) (queryType : UInt16) (qname : Str) (w : World) :
    Option (EStateM.Result Error World (Option IpAddr)) :=
  if asksForFamily queryType w.dns.networkAddr then
    match w.findOrAllocateIp codec fuel qname with
    | none => none
    | some (.ok ip w) => some (.ok (some ip) w)
    | some (.error e w) => some (.error e w)
  else some (.ok none w)

/-- `generate_query`; an error of `to_vec` is shown as its text. -/
def generateQuery (codec : RecordCodec) (fuel : Nat) (data : List UInt8) (w : World) :
    Option (EStateM.Result Error World (List UInt8 × Str × Option IpAddr)) :=
  match parseDataToDnsMessage dns.toHickory data false with
  | .error e => some (.error (.string e) w)
  | .ok message =>
    match validateDnsQuery message with
    | .error e => some (.error (.string e) w)
    | .ok query =>
      match extractDomainFromDnsMessage dns message with
      | .error e => some (.error (.string e) w)
      | .ok qname =>
        match addressFor codec fuel query.queryType qname w with
        | none => none
        | some (.error e w) => some (.error e w)
        | some (.ok ip w) =>
          match buildDnsResponse dns message ip 5 with
          | .error e => some (.error (.string e) w)
          | .ok response =>
            match dns.toVec response with
            | .error e => some (.error (.string s!"DnsProtoError {e}") w)
            | .ok bytes => some (.ok (bytes, qname, ip) w)

variable {dns} {codec : RecordCodec} {fuel : Nat} {w w' : World} {ip : IpAddr}

theorem addressFor_some {queryType : UInt16} {qname : Str}
    (h : addressFor codec fuel queryType qname w = some (.ok (some ip) w')) :
    w.findOrAllocateIp codec fuel qname = some (.ok ip w') := by
  unfold addressFor at h
  split at h
  · split at h
    · cases h
    · rename_i hfound
      cases h
      exact hfound
    · cases h
  · cases h

/-- **A query answered with an address** has been given it by the allocator, for the text of its
    name. -/
theorem generateQuery_some {data bytes : List UInt8} {qname : Str}
    (h : generateQuery dns codec fuel data w = some (.ok (bytes, qname, some ip) w')) :
    (∃ name, qname = dns.toAscii name) ∧
      w.findOrAllocateIp codec fuel qname = some (.ok ip w') := by
  unfold generateQuery at h
  split at h
  · cases h
  · split at h
    · cases h
    · split at h
      · cases h
      · rename_i text hextract
        split at h
        · cases h
        · cases h
        · rename_i found after hfor
          split at h
          · cases h
          · split at h
            · cases h
            · cases h
              refine ⟨?_, addressFor_some hfor⟩
              unfold extractDomainFromDnsMessage at hextract
              split at hextract
              · rename_i query _ _
                cases hextract
                exact ⟨query.name, rfl⟩
              · cases hextract

/-- The mapping of an answered query is in the table. -/
theorem generateQuery_mapped {pool : IpCidr} (ht : FakeIpTable pool w.dns)
    {data bytes : List UInt8} {qname : Str}
    (h : generateQuery dns codec fuel data w = some (.ok (bytes, qname, some ip) w')) :
    World.Allocated codec (w.dns.canonicalName qname) w ip w' ∧
      w'.dns.lruCache.peek ip = some (w.dns.canonicalName qname) := by
  have hfound := (generateQuery_some h).2
  rcases World.findOrAllocateIp_cases codec ht fuel qname with ⟨hnone, -⟩ | ⟨ip', w'', hok, hal⟩
  · cases hnone.symm.trans hfound
  · cases hok.symm.trans hfound
    exact ⟨hal, by rw [hal.peek codec ht, if_pos rfl]⟩

/-! ## 2. What a start-up can bring back -/

theorem VirtualDns.SameTable.storable {v v' : VirtualDns} (hs : v.SameTable v')
    (h : v.Storable) : v'.Storable := by
  rw [hs]
  exact h

/-- Whatever is on the disk, a restarted process has only mappings that `restore_mapping` takes. -/
theorem restarted_storable (codec : RecordCodec) (pool : IpCidr) (path : Str) (d : Disk) :
    (finalState (World.enablePersistence codec path ⟨VirtualDns.new pool, d⟩)).dns.Storable := by
  have hnew : (VirtualDns.new pool).Storable := nofun
  rcases World.enablePersistence_sameTable codec path ⟨VirtualDns.new pool, d⟩ with
    ⟨hsame, -⟩ | ⟨dns, repair, hstart, hsame⟩
  · rw [hsame]
    exact hnew
  · exact hsame.storable (hstart.storable (FakeIpTable.new pool) hnew)

/-! ## 3. What is allocated and what is restored -/

/-- A text that a journal can hold. -/
def StorableName (name : Str) : Prop := name ≠ [] ∧ name.len ≤ 253

/-- A resolver takes a canonical name for an address of its pool iff a journal can hold it. -/
theorem restoreMapping_iff {pool : IpCidr} {v v' : VirtualDns} (ht : FakeIpTable pool v)
    (ht' : FakeIpTable pool v') {qname : Str} (hip : pool.Contains ip) :
    (v'.restoreMapping ip (v.canonicalName qname)).1 = true ↔
      StorableName (v.canonicalName qname) := by
  have hsame : v'.canonicalName (v.canonicalName qname) = v.canonicalName qname := by
    rw [← ht'.settings.canonicalName, ht.settings.canonicalName]
    exact v.canonicalName_idem qname
  have hin : v'.addressInPool ip = true := (ht'.contains_iff ip).mp hip
  have hrest := @VirtualDns.restorable_iff v' ip (v.canonicalName qname)
  rw [hsame, and_iff_left hin] at hrest
  show _ ↔ _ ∧ _
  rw [← hrest]
  cases htake : v'.restorable (ip, v.canonicalName qname) with
  | true => rw [VirtualDns.restoreMapping_of_restorable htake]
  | false => rw [VirtualDns.restoreMapping_of_not_restorable htake]

/-- **An answered name survives a restart iff the journal can hold it**: the mapping is in the
    table, and the resolvers of the pool take it from a journal, and in a run without failures a
    new process on the journal has it, exactly if the text is neither empty nor longer than 253
    bytes. -/
theorem answered_mapping_restored (dns : HickoryServer Name Signature Rest) (codec : RecordCodec)
    (hc : codec.Lawful) {pool : IpCidr} {uses : List IpAddr} {w w' : World}
    (hw : Reachable codec pool uses w) {fuel : Nat} {data bytes : List UInt8} {qname : Str}
    {ip : IpAddr}
    (h : generateQuery dns codec fuel data w = some (.ok (bytes, qname, some ip) w')) :
    w'.dns.lruCache.peek ip = some (w.dns.canonicalName qname) ∧
    ((∀ later v, Reachable codec pool later v →
      (v.dns.restoreMapping ip (w.dns.canonicalName qname)).1 = true) ↔
        StorableName (w.dns.canonicalName qname)) ∧
    (∀ path, JournalRun codec pool path true w → ∀ d : Disk, d.Quiet →
      d.files path = w'.disk.files path →
      ((∃ count restarted d',
        World.enablePersistence codec path ⟨VirtualDns.new pool, d⟩ =
          .ok count ⟨restarted, d'⟩ ∧
        restarted.lruCache.peek ip = some (w.dns.canonicalName qname)) ↔
          StorableName (w.dns.canonicalName qname))) := by
  have ht := reachable_fakeIpTable codec hw
  obtain ⟨hal, hpeek⟩ := generateQuery_mapped ht h
  have hip := hal.contains ht
  refine ⟨hpeek, ⟨fun htakes => (restoreMapping_iff ht ht hip).mp (htakes uses w hw),
    fun hname later v hv =>
      (restoreMapping_iff ht (reachable_fakeIpTable codec hv) hip).mpr hname⟩,
    fun path hrun d hquiet hfile => ⟨?_, fun hname => ?_⟩⟩
  · rintro ⟨count, restarted, d', hok, hmapped⟩
    have hrest := restarted_storable codec pool path d
    have ht' := reachable_fakeIpTable codec ((Reachable.new d).step
      (.enable ⟨VirtualDns.new pool, d⟩ path))
    rw [hok] at hrest ht'
    refine (restoreMapping_iff ht ht' hip).mp ?_
    rw [VirtualDns.restoreMapping_of_restorable (hrest ip _ hmapped)]
  · have hlive : Live codec pool path w' := journalRun_invariant hc
      (hrun.serve (.allocate hname.1 hname.2 (generateQuery_some h).2))
    obtain ⟨-, -, restarted, d', hok, -, -, -, -, -, htable, -⟩ := hlive.reload hquiet hfile
    exact ⟨_, restarted, d', hok, by rw [htable, hpeek]⟩

end Answers

/-! ## 4. Queries of the wire -/

/-- Hickory on questions and addresses, for a server. -/
def wireServer : HickoryServer WireName Unit Wire.Flags where
  toHickoryNames := wireNames
  intoResponse message :=
    { message with rest := { message.rest with messageType := .response } }

/-- The answer to a question, with the address. -/
def addressAnswer (id : UInt16) (name : WireName) (ip : BitVec 32) : Wire.WireMessage :=
  { addressMessage id .response name with
    answers := [⟨name, 5, 1, .a ip⟩]
    rest := { (addressMessage id .response name).rest with
      rest := ⟨.noError, false, false, true, ⟨true, false⟩⟩ } }

/-- A question that hickory reads, and whose answer it can write, is answered with the address that
    the allocator gives. -/
theorem generateQuery_question {codec : RecordCodec} {fuel : Nat} (id : UInt16) {name : WireName}
    {w w' : World} {ip : BitVec 32}
    (h : addressFor codec fuel RECORD_TYPE_A name.toAscii w = some (.ok (some (.v4 ip)) w'))
    (hread : wireNames.fromVec (addressQuestion id 0x0100 name) =
      .ok (addressMessage id .query name))
    (hwrite : (wireNames.toVec (addressAnswer id name ip)).isOk = true) :
    ∃ bytes, generateQuery wireServer codec fuel (addressQuestion id 0x0100 name) w =
      some (.ok (bytes, name.toAscii, some (.v4 ip)) w') := by
  cases hbytes : wireNames.toVec (addressAnswer id name ip) with
  | error e =>
    rw [hbytes] at hwrite
    cases hwrite
  | ok bytes =>
    refine ⟨bytes, ?_⟩
    have hparse : parseDataToDnsMessage wireServer.toHickory (addressQuestion id 0x0100 name)
        false = .ok (addressMessage id .query name) := hread
    have hvalidate : validateDnsQuery (addressMessage id .query name) = .ok ⟨name, 1, 1⟩ := rfl
    have hextract : extractDomainFromDnsMessage wireServer (addressMessage id .query name) =
        .ok name.toAscii := rfl
    have hbuild : buildDnsResponse wireServer (addressMessage id .query name)
        (some (.v4 ip)) 5 = .ok (addressAnswer id name ip) := rfl
    have hto : wireServer.toVec (addressAnswer id name ip) = .ok bytes := hbytes
    have haddress : addressFor codec fuel 1 name.toAscii w = some (.ok (some (.v4 ip)) w') := h
    simp only [generateQuery, hparse, hvalidate, hextract, haddress, hbuild, hto]

set_option maxRecDepth 8000 in
theorem sampleStart_answers :
    ∃ bytes w, generateQuery wireServer Json.jsonCodec 2
        (addressQuestion 7 0x0100 exampleWireName) sampleStart =
      some (.ok (bytes, "a.example.".toList, some sampleIp) w) := by
  obtain ⟨w, hw⟩ : ∃ w, addressFor Json.jsonCodec 2 RECORD_TYPE_A exampleWireName.toAscii
      sampleStart = some (.ok (some sampleIp) w) := ⟨_, rfl⟩
  obtain ⟨bytes, hbytes⟩ := generateQuery_question 7 hw (by decide +kernel) (by decide +kernel)
  exact ⟨bytes, w, hbytes⟩

/-- The sample resolver answers a query, and its journal brings the mapping back. -/
theorem sample_answered_mapping_restored :
    ∃ bytes w, generateQuery wireServer Json.jsonCodec 2
        (addressQuestion 7 0x0100 exampleWireName) sampleStart =
        some (.ok (bytes, "a.example.".toList, some sampleIp) w) ∧
      ∀ d : Disk, d.Quiet → d.files samplePath = w.disk.files samplePath →
        ∃ count restarted d', World.enablePersistence Json.jsonCodec samplePath
            ⟨VirtualDns.new samplePool, d⟩ = .ok count ⟨restarted, d'⟩ ∧
          restarted.lruCache.peek sampleIp = some "a.example".toList := by
  obtain ⟨bytes, w, hw⟩ := sampleStart_answers
  have h := answered_mapping_restored wireServer Json.jsonCodec
    Json.jsonCodec_lawful sampleStart_reachable hw
  exact ⟨bytes, w, hw, fun d hquiet hfile =>
    (h.2.2 samplePath sampleStart_journalRun d hquiet hfile).mpr ⟨by decide, by decide⟩⟩

set_option maxRecDepth 8000 in
theorem sampleStart_answers_root :
    ∃ bytes w, generateQuery wireServer Json.jsonCodec 2 (addressQuestion 7 0x0100 .root)
        sampleStart = some (.ok (bytes, ['.'], some sampleIp) w) ∧
      w.dns.lruCache.peek sampleIp = some [] := by
  obtain ⟨w, hw, hpeek⟩ : ∃ w, addressFor Json.jsonCodec 2 RECORD_TYPE_A WireName.root.toAscii
      sampleStart = some (.ok (some sampleIp) w) ∧ w.dns.lruCache.peek sampleIp = some [] :=
    ⟨_, rfl, rfl⟩
  obtain ⟨bytes, hbytes⟩ := generateQuery_question 7 hw (by decide +kernel) (by decide +kernel)
  exact ⟨bytes, w, hbytes, hpeek⟩

/-- The root is given an address, and no new process, on whatever journal, has it: the name is
    empty after `canonical_name`, which the allocator takes and `restore_mapping` does not. -/
theorem root_mapping_lost :
    ∃ bytes w, generateQuery wireServer Json.jsonCodec 2 (addressQuestion 7 0x0100 .root)
        sampleStart = some (.ok (bytes, ['.'], some sampleIp) w) ∧
      w.dns.lruCache.peek sampleIp = some [] ∧
      ((VirtualDns.new samplePool).restoreMapping sampleIp []).1 = false ∧
      ∀ path d, (finalState (World.enablePersistence Json.jsonCodec path
        ⟨VirtualDns.new samplePool, d⟩)).dns.lruCache.peek sampleIp ≠ some [] := by
  obtain ⟨bytes, w, hw, hpeek⟩ := sampleStart_answers_root
  refine ⟨bytes, w, hw, hpeek, rfl, fun path d hmapped => ?_⟩
  have hrest := restarted_storable Json.jsonCodec samplePool path d sampleIp [] hmapped
  have hcanon : ∀ v : VirtualDns, v.canonicalName [] = [] := fun v => rfl
  simp [VirtualDns.restorable, hcanon] at hrest

end Tun2Proxy
