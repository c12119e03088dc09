/-
  File:      Tun2Proxy/Dns/Cname.lean
  Subject:   Addresses behind aliases (`extract_address_or_cname`, src/dns.rs).

  A response may answer with the address of the name asked for, or with CNAME records that lead to
  another name, whose address it may have too. The code follows them from name to name; each name
  costs one round over all answers, and there are `MAX_CNAME_DEPTH` rounds.

  `Alias` is what one CNAME record says; the code's rounds are a walk along it (`Walk`). That a name
  owns at most one CNAME (`SingleAlias`) is a property of honest responses, which nobody checks.
-/
import Tun2Proxy.Dns.Message
import Tun2Proxy.Lib.Walk

namespace Tun2Proxy

/-! ## 1. Answers -/

inductive ResponseCode where
  | noError
  | formErr
  | servFail
  | nxDomain
  | notImp
  | refused
  | yxDomain
  | yxRrSet
  | nxRrSet
  | notAuth
  | notZone
  | badVers
  | badSig
  | badKey
  | badTime
  | badMode
  | badName
  | badAlg
  | badTrunc
  | badCookie
  | unknown (code : UInt16)
  deriving DecidableEq, Repr

/-- The `Debug` text. -/
def ResponseCode.debug : ResponseCode → String
  | .noError => "NoError"
  | .formErr => "FormErr"
  | .servFail => "ServFail"
  | .nxDomain => "NXDomain"
  | .notImp => "NotImp"
  | .refused => "Refused"
  | .yxDomain => "YXDomain"
  | .yxRrSet => "YXRRSet"
  | .nxRrSet => "NXRRSet"
  | .notAuth => "NotAuth"
  | .notZone => "NotZone"
  | .badVers => "BADVERS"
  | .badSig => "BADSIG"
  | .badKey => "BADKEY"
  | .badTime => "BADTIME"
  | .badMode => "BADMODE"
  | .badName => "BADNAME"
  | .badAlg => "BADALG"
  | .badTrunc => "BADTRUNC"
  | .badCookie => "BADCOOKIE"
  | .unknown code => s!"Unknown({code})"

/-- The data of a record; the last kind is every type the lookup does not look into. -/
inductive RData (Name : Type) where
  | a (address : BitVec 32)
  | aaaa (address : BitVec 128)
  | cname (name : Name)
  | other
  deriving DecidableEq, Repr

structure DnsRecord (Name : Type) where
  name : Name
  ttl : UInt32
  dnsClass : UInt16
  data : RData Name
  deriving DecidableEq, Repr

/-- What a response has besides its question and its records. -/
structure ResponseInfo (Rest : Type) where
  responseCode : ResponseCode
  authoritative : Bool
  truncation : Bool
  recursionAvailable : Bool
  rest : Rest
  deriving DecidableEq

abbrev DnsResponse (Name Signature Rest : Type) :=
  Message Name (DnsRecord Name) Signature (ResponseInfo Rest)

/-- What lookups use of hickory: the texts of names and of types besides the rest. -/
structure HickoryNames (Name Signature Rest : Type) extends
    Hickory Name (DnsRecord Name) Signature (ResponseInfo Rest) where
  toAscii : Name → Str
  typeDebug : UInt16 → String

/-! ## 2. The lookup -/

/-- `RecordType::AAAA`. -/
def RECORD_TYPE_AAAA : UInt16 := 28

def MAX_CNAME_DEPTH : Nat := 8

inductive AddressLookup where
  | address (ip : IpAddr)
  | cname (name : Str)
  deriving DecidableEq, Repr

inductive LookupError (Name : Type) where
  | responseCode (code : ResponseCode)
  | loopAt (name : Name)
  | noAddress (queryType : UInt16) (name : Name)
  | exceeded (name : Name)
  deriving DecidableEq, Repr

section Lookup

variable {Name Signature Rest : Type} (dns : HickoryNames Name Signature Rest)

def LookupError.text : LookupError Name → String
  | .responseCode code => code.debug
  | .loopAt name =>
    let name := String.ofList (dns.toAscii name)
    s!"DNS CNAME loop at {name}"
  | .noAddress queryType name =>
    let kind := dns.typeDebug queryType
    let name := String.ofList (dns.toAscii name)
    s!"DNS response contained no {kind} address for {name}"
  | .exceeded name =>
    let name := String.ofList (dns.toAscii name)
    s!"DNS CNAME chain for {name} exceeded {MAX_CNAME_DEPTH} records"

/-- The address of a record, if it is of the family asked for. -/
def RData.addressOf (wantIpv6 : Bool) : RData Name → Option IpAddr
  | .a address => if wantIpv6 then none else some (.v4 address)
  | .aaaa address => if wantIpv6 then some (.v6 address) else none
  | _ => none

/-- The inner loop: the first address ends it, the last CNAME is kept. -/
def scanAnswers (wantIpv6 : Bool) (current : Name) (cname : Option Name) :
    List (DnsRecord Name) → IpAddr ⊕ Option Name
  | [] => .inr cname
  | answer :: rest =>
    if namesEqual dns.toHickory answer.name current then
      match answer.data.addressOf wantIpv6 with
      | some ip => .inl ip
      | none =>
        match answer.data with
        | .cname name => scanAnswers wantIpv6 current (some name) rest
        | _ => scanAnswers wantIpv6 current cname rest
    else scanAnswers wantIpv6 current cname rest

/-- The rounds that are left, from the name they have come to. -/
def followCnames (message : DnsResponse Name Signature Rest) (query : Query Name) :
    Nat → Name → Bool → Except (LookupError Name) AddressLookup
  | 0, _, _ => .error (.exceeded query.name)
  | rounds + 1, current, followedCname =>
    let wantIpv6 := query.queryType == RECORD_TYPE_AAAA
    match scanAnswers dns wantIpv6 current none message.answers with
    | .inl ip => .ok (.address ip)
    | .inr (some name) =>
      if namesEqual dns.toHickory name current then .error (.loopAt current)
      else followCnames message query rounds name true
    | .inr none =>
      if followedCname then .ok (.cname (dns.toAscii current))
      else .error (.noAddress query.queryType current)

def extractAddressOrCname (message : DnsResponse Name Signature Rest) (query : Query Name) :
    Except (LookupError Name) AddressLookup :=
  if message.rest.rest.responseCode ≠ .noError then
    .error (.responseCode message.rest.rest.responseCode)
  else followCnames dns message query MAX_CNAME_DEPTH query.name false

/-! ## 3. What the answers say -/

/-- A CNAME record leads from the one name to the other. -/
def Alias (message : DnsResponse Name Signature Rest) (name target : Name) : Prop :=
  ∃ answer ∈ message.answers,
    namesEqual dns.toHickory answer.name name = true ∧ answer.data = .cname target

/-- An address record of the family the question asks for. -/
def OwnsAddress (message : DnsResponse Name Signature Rest) (query : Query Name) (name : Name)
    (ip : IpAddr) : Prop :=
  ∃ answer ∈ message.answers, namesEqual dns.toHickory answer.name name = true ∧
    answer.data.addressOf (query.queryType == RECORD_TYPE_AAAA) = some ip

def Addressless (message : DnsResponse Name Signature Rest) (query : Query Name) (name : Name) :
    Prop :=
  ∀ ip, ¬ OwnsAddress dns message query name ip

/-- All CNAMEs of a name lead to one name. -/
def SingleAlias (message : DnsResponse Name Signature Rest) : Prop :=
  ∀ name target other, Alias dns message name target → Alias dns message name other →
    namesEqual dns.toHickory target other = true

/-- `Name::eq_ignore_root` compares labels, without regard to case and to a final dot. -/
def NamesEquivalence : Prop :=
  Equivalence fun left right => namesEqual dns.toHickory left right = true

variable {dns}

section Scan

variable {wantIpv6 : Bool} {current : Name}

theorem scanAnswers_address {cname : Option Name} {answers : List (DnsRecord Name)} {ip : IpAddr}
    (h : scanAnswers dns wantIpv6 current cname answers = .inl ip) :
    ∃ answer ∈ answers, namesEqual dns.toHickory answer.name current = true ∧
      answer.data.addressOf wantIpv6 = some ip := by
  induction answers generalizing cname with
  | nil => cases h
  | cons answer rest ih =>
    rw [scanAnswers] at h
    split at h
    · rename_i howner
      split at h
      · rename_i found haddress
        cases h
        exact ⟨answer, List.mem_cons_self, howner, haddress⟩
      · split at h <;> exact List.exists_mem_cons_of_exists (ih h)
    · exact List.exists_mem_cons_of_exists (ih h)

/-- Without an address, all answers of the name have been seen: none is an address, and the CNAME
    kept is one of them, if there is one. -/
theorem scanAnswers_cname {cname kept : Option Name} {answers : List (DnsRecord Name)}
    (h : scanAnswers dns wantIpv6 current cname answers = .inr kept) :
    (∀ answer ∈ answers, namesEqual dns.toHickory answer.name current = true →
      answer.data.addressOf wantIpv6 = none) ∧
    (kept = cname ∨ ∃ answer ∈ answers, namesEqual dns.toHickory answer.name current = true ∧
      ∃ name, answer.data = .cname name ∧ kept = some name) ∧
    (kept = none → ∀ answer ∈ answers, namesEqual dns.toHickory answer.name current = true →
      ∀ name, answer.data ≠ .cname name) := by
  induction answers generalizing cname with
  | nil =>
    cases h
    exact ⟨by simp, .inl rfl, by simp⟩
  | cons answer rest ih =>
    rw [scanAnswers] at h
    split at h
    · rename_i howner
      split at h
      · cases h
      · rename_i hnone
        split at h
        · rename_i name hdata
          obtain ⟨haddr, hkept, hno⟩ := ih h
          refine ⟨List.forall_mem_cons.mpr ⟨fun _ => hnone, haddr⟩, .inr (hkept.elim
            (fun hkept => ⟨answer, List.mem_cons_self, howner, name, hdata, hkept⟩)
            List.exists_mem_cons_of_exists), fun hk => ?_⟩
          rcases hkept with hkept | ⟨_, _, _, _, _, hkept⟩ <;> cases hk.symm.trans hkept
        · rename_i hdata
          obtain ⟨haddr, hkept, hno⟩ := ih h
          exact ⟨List.forall_mem_cons.mpr ⟨fun _ => hnone, haddr⟩,
            hkept.imp_right List.exists_mem_cons_of_exists,
            fun hk => List.forall_mem_cons.mpr ⟨fun _ => hdata, hno hk⟩⟩
    · rename_i howner
      obtain ⟨haddr, hkept, hno⟩ := ih h
      exact ⟨List.forall_mem_cons.mpr ⟨fun hown => absurd hown howner, haddr⟩,
        hkept.imp_right List.exists_mem_cons_of_exists,
        fun hk => List.forall_mem_cons.mpr ⟨fun hown => absurd hown howner, hno hk⟩⟩

end Scan

variable {message : DnsResponse Name Signature Rest} {query : Query Name}

/-- **One round**: it ends at an address of the name, goes on along an alias of a name without
    one, or the name has neither. -/
theorem followCnames_round (rounds : Nat) (current : Name) (followedCname : Bool) :
    (∃ ip, OwnsAddress dns message query current ip ∧
      followCnames dns message query (rounds + 1) current followedCname = .ok (.address ip)) ∨
    Addressless dns message query current ∧
      ((∃ name, Alias dns message current name ∧
        followCnames dns message query (rounds + 1) current followedCname =
          if namesEqual dns.toHickory name current then .error (.loopAt current)
          else followCnames dns message query rounds name true) ∨
      (∀ name, ¬ Alias dns message current name) ∧
        followCnames dns message query (rounds + 1) current followedCname =
          if followedCname then .ok (.cname (dns.toAscii current))
          else .error (.noAddress query.queryType current)) := by
  simp only [followCnames]
  cases hscan : scanAnswers dns (query.queryType == RECORD_TYPE_AAAA) current none
    message.answers with
  | inl ip => exact .inl ⟨ip, scanAnswers_address hscan, rfl⟩
  | inr kept =>
    obtain ⟨haddr, hkept, hno⟩ := scanAnswers_cname hscan
    refine .inr ⟨fun ip ⟨answer, hmem, howner, hip⟩ =>
      (nomatch (haddr answer hmem howner).symm.trans hip), ?_⟩
    cases kept with
    | some name =>
      rcases hkept with hkept | ⟨answer, hmem, howner, name', hdata, hsome⟩
      · cases hkept
      · cases hsome
        exact .inl ⟨name, ⟨answer, hmem, howner, hdata⟩, rfl⟩
    | none =>
      exact .inr ⟨fun name ⟨answer, hmem, howner, hdata⟩ => hno rfl answer hmem howner name hdata,
        rfl⟩

/-! ## 4. What is found is there -/

/-- How the rounds end, at `target` behind the names `passed`. -/
inductive LookupEnd (dns : HickoryNames Name Signature Rest)
    (message : DnsResponse Name Signature Rest) (query : Query Name) (rounds : Nat)
    (followedCname : Bool) (passed : List Name) (target : Name) :
    Except (LookupError Name) AddressLookup → Prop
  | address {ip : IpAddr} (howns : OwnsAddress dns message query target ip) :
      LookupEnd dns message query rounds followedCname passed target (.ok (.address ip))
  | cname (hfollowed : followedCname = false → passed ≠ [])
      (hnone : Addressless dns message query target)
      (hend : ∀ next, ¬ Alias dns message target next) :
      LookupEnd dns message query rounds followedCname passed target
        (.ok (.cname (dns.toAscii target)))
  | loop : LookupEnd dns message query rounds followedCname passed target (.error (.loopAt target))
  | nothing : LookupEnd dns message query rounds followedCname passed target
      (.error (.noAddress query.queryType target))
  | exceeded (hlen : passed.length = rounds) :
      LookupEnd dns message query rounds followedCname passed target
        (.error (.exceeded query.name))

/-- One more name in front. -/
theorem LookupEnd.behind {rounds : Nat} {followedCname : Bool} {passed : List Name}
    {current target : Name} {result : Except (LookupError Name) AddressLookup}
    (h : LookupEnd dns message query rounds true passed target result) :
    LookupEnd dns message query (rounds + 1) followedCname (current :: passed) target result := by
  cases h with
  | address howns => exact .address howns
  | cname _ hnone hend => exact .cname (fun _ => List.cons_ne_nil _ _) hnone hend
  | loop => exact .loop
  | nothing => exact .nothing
  | exceeded hlen => exact .exceeded (by rw [List.length_cons, hlen])

/-- **What the rounds do**: from any name and any round on, they follow aliases of names that own no
    address. -/
theorem followCnames_walk (rounds : Nat) (current : Name) (followedCname : Bool) :
    ∃ passed target, Walk (Alias dns message) current passed target ∧
      (∀ name ∈ passed, Addressless dns message query name) ∧
      LookupEnd dns message query rounds followedCname passed target
        (followCnames dns message query rounds current followedCname) := by
  induction rounds generalizing current followedCname with
  | zero => exact ⟨[], current, .here current, by simp, .exceeded rfl⟩
  | succ rounds ih =>
    rcases @followCnames_round _ _ _ dns message query rounds current followedCname with
      ⟨found, howns, heq⟩ | ⟨hnone, ⟨name, halias, heq⟩ | ⟨hend, heq⟩⟩
    · rw [heq]
      exact ⟨[], current, .here current, by simp, .address howns⟩
    · rw [heq]
      split
      · exact ⟨[], current, .here current, by simp, .loop⟩
      · obtain ⟨passed, target, hwalk, hpassed, hlookup⟩ := ih name true
        exact ⟨current :: passed, target, .step halias hwalk,
          List.forall_mem_cons.mpr ⟨hnone, hpassed⟩, hlookup.behind⟩
    · rw [heq]
      split
      · rename_i hfollowed
        refine ⟨[], current, .here current, by simp, .cname (fun hnot => ?_) hnone hend⟩
        exact absurd hfollowed (by simp [hnot])
      · exact ⟨[], current, .here current, by simp, .nothing⟩

/-! ## 5. Names and their classes

Records are found by `namesEqual`, so equal names own the same. -/

section Classes

variable (heq : NamesEquivalence dns)

include heq

variable {name target : Name}

theorem alias_congr {other : Name} (hsame : namesEqual dns.toHickory name other = true)
    (h : Alias dns message name target) : Alias dns message other target := by
  obtain ⟨answer, hmem, howner, hdata⟩ := h
  exact ⟨answer, hmem, heq.trans howner hsame, hdata⟩

theorem ownsAddress_congr {other : Name} {ip : IpAddr}
    (hsame : namesEqual dns.toHickory name other = true) (h : OwnsAddress dns message query name ip)
    : OwnsAddress dns message query other ip := by
  obtain ⟨answer, hmem, howner, hdata⟩ := h
  exact ⟨answer, hmem, heq.trans howner hsame, hdata⟩

variable (hsingle : SingleAlias dns message)

include hsingle

variable {current : Name} {followedCname : Bool}

/-- **Cycles**: names none of which has an address, each with an alias that leads to one of them
    again, are never left. -/
theorem followCnames_cycle {names : List Name}
    (hnone : ∀ name ∈ names, Addressless dns message query name)
    (hclosed : ∀ name ∈ names, ∃ next, Alias dns message name next ∧
      ∃ again ∈ names, namesEqual dns.toHickory next again = true) (hname : name ∈ names)
    {rounds : Nat} (hcurrent : namesEqual dns.toHickory name current = true) :
    ∃ e, followCnames dns message query rounds current followedCname = .error e := by
  induction rounds generalizing name current followedCname with
  | zero => exact ⟨_, rfl⟩
  | succ rounds ih =>
    obtain ⟨next, hnext, again, hagain, hsame⟩ := hclosed name hname
    rcases @followCnames_round _ _ _ dns message query rounds current followedCname with
      ⟨found, howns, -⟩ | ⟨-, ⟨target, halias, hfollow⟩ | ⟨hend, -⟩⟩
    · exact absurd (ownsAddress_congr heq (heq.symm hcurrent) howns) (hnone name hname found)
    · rw [hfollow]
      split
      · exact ⟨_, rfl⟩
      · have htarget : namesEqual dns.toHickory next target = true :=
          hsingle current next target (alias_congr heq hcurrent hnext) halias
        exact ih hagain (heq.trans (heq.symm hsame) htarget)
    · exact absurd (alias_congr heq hcurrent hnext) (hend next)

variable {passed : List Name}

/-- If a name is its own alias, nothing else is reached from it. -/
theorem walk_loop {next start : Name} (halias : Alias dns message name next)
    (hloop : namesEqual dns.toHickory next name = true)
    (hwalk : Walk (Alias dns message) start passed target)
    (hstart : namesEqual dns.toHickory start name = true) :
    namesEqual dns.toHickory target name = true := by
  have hstep : ∀ a b, namesEqual dns.toHickory a name = true → Alias dns message a b →
      namesEqual dns.toHickory b name = true := fun a b ha hab =>
    heq.trans (hsingle name b next (alias_congr heq ha hab) halias) hloop
  exact hwalk.invariant hstep hstart

/-- A round at a name without an address goes on along its alias, if the way ends behind it. -/
theorem followCnames_goes {next : Name} (halias : Alias dns message name next)
    (hwalk : Walk (Alias dns message) next passed target)
    (hname : Addressless dns message query name)
    (hends : ¬ Addressless dns message query target ∨ ∀ further, ¬ Alias dns message target further)
    (rounds : Nat) (followedCname : Bool)
    (hcurrent : namesEqual dns.toHickory name current = true) :
    ∃ kept, namesEqual dns.toHickory next kept = true ∧
      followCnames dns message query (rounds + 1) current followedCname =
        followCnames dns message query rounds kept true := by
  rcases @followCnames_round _ _ _ dns message query rounds current followedCname with
    ⟨ip, hip, -⟩ | ⟨-, ⟨kept, hkept, hfollow⟩ | ⟨hend, -⟩⟩
  · exact absurd (ownsAddress_congr heq (heq.symm hcurrent) hip) (hname ip)
  · have hsame : namesEqual dns.toHickory next kept = true :=
      hsingle current next kept (alias_congr heq hcurrent halias) hkept
    refine ⟨kept, hsame, ?_⟩
    rw [hfollow, if_neg]
    -- A name that is its own alias would be where the way ends, and it has no address.
    intro hself
    have hloop : namesEqual dns.toHickory next name = true :=
      heq.trans hsame (heq.trans hself (heq.symm hcurrent))
    have htarget := walk_loop heq hsingle halias hloop hwalk hloop
    rcases hends with howns | hlast
    · exact howns fun ip hip => hname ip (ownsAddress_congr heq htarget hip)
    · exact hlast next (alias_congr heq (heq.symm htarget) halias)
  · exact absurd (alias_congr heq hcurrent halias) (hend next)

/-- **Completeness**: an address behind fewer records than there are rounds is found. -/
theorem followCnames_finds (hwalk : Walk (Alias dns message) name passed target)
    (howns : ¬ Addressless dns message query target)
    (hpassed : ∀ earlier ∈ passed, Addressless dns message query earlier) {rounds : Nat}
    (hrounds : passed.length < rounds) (hcurrent : namesEqual dns.toHickory name current = true) :
    ∃ ip, followCnames dns message query rounds current followedCname = .ok (.address ip) ∧
      OwnsAddress dns message query target ip := by
  obtain ⟨rounds, rfl⟩ :=
    Nat.exists_eq_succ_of_ne_zero (Nat.ne_of_gt (Nat.zero_lt_of_lt hrounds))
  induction hwalk generalizing rounds current followedCname with
  | here name =>
    rcases @followCnames_round _ _ _ dns message query rounds current followedCname with
      ⟨ip, hip, hfound⟩ | ⟨hnone, -⟩
    · exact ⟨ip, hfound, ownsAddress_congr heq (heq.symm hcurrent) hip⟩
    · exact absurd (fun ip hip => hnone ip (ownsAddress_congr heq hcurrent hip)) howns
  | @step name next target passed halias hwalk ih =>
    obtain ⟨hname, hlater⟩ := List.forall_mem_cons.mp hpassed
    obtain ⟨kept, hsame, hfollow⟩ := followCnames_goes heq hsingle halias hwalk hname
      (.inl howns) rounds followedCname hcurrent
    rw [hfollow]
    have hrounds := Nat.lt_of_succ_lt_succ hrounds
    obtain ⟨rounds, rfl⟩ :=
      Nat.exists_eq_succ_of_ne_zero (Nat.ne_of_gt (Nat.zero_lt_of_lt hrounds))
    exact ih howns hlater hsame rounds hrounds

/-- **The limit**: an end behind as many records as there are rounds is not looked at. -/
theorem followCnames_exceeds (hwalk : Walk (Alias dns message) name passed target)
    (hpassed : ∀ earlier ∈ passed, Addressless dns message query earlier)
    (hends : ¬ Addressless dns message query target ∨ ∀ further, ¬ Alias dns message target further)
    (hcurrent : namesEqual dns.toHickory name current = true) :
    followCnames dns message query passed.length current followedCname =
      .error (.exceeded query.name) := by
  induction hwalk generalizing current followedCname with
  | here name => rfl
  | step halias hwalk ih =>
    obtain ⟨hname, hlater⟩ := List.forall_mem_cons.mp hpassed
    obtain ⟨kept, hsame, hfollow⟩ := followCnames_goes heq hsingle halias hwalk hname hends _
      followedCname hcurrent
    rw [List.length_cons, hfollow]
    exact ih hlater hends hsame

/-- Ways from one name run along each other, so a longer one goes on where the shorter one ends. -/
theorem walk_goes_on {other end' : Name} {passed' : List Name}
    (hwalk : Walk (Alias dns message) name passed target)
    (hlonger : Walk (Alias dns message) other passed' end')
    (hsame : namesEqual dns.toHickory name other = true) (hlen : passed.length < passed'.length) :
    ∃ next, Alias dns message target next := by
  induction hwalk generalizing other passed' with
  | here name =>
    cases hlonger with
    | here => cases hlen
    | step halias' _ => exact ⟨_, alias_congr heq (heq.symm hsame) halias'⟩
  | step halias _ ih =>
    cases hlonger with
    | here => cases hlen
    | step halias' hlonger =>
      exact ih hlonger (hsingle _ _ _ (alias_congr heq hsame halias) halias')
        (Nat.lt_of_succ_lt_succ hlen)

end Classes

/-! ## 6. The lookup as a whole -/

theorem extractAddressOrCname_ok {found : AddressLookup}
    (h : extractAddressOrCname dns message query = .ok found) :
    followCnames dns message query MAX_CNAME_DEPTH query.name false = .ok found := by
  unfold extractAddressOrCname at h
  split at h
  · cases h
  · exact h

/-- **What the lookup returns is in the answers**: an address is owned by a name that aliases lead
    to, a name is where aliases end; no name on the way owns an address. Aliases in a circle are
    an error. -/
theorem extractAddressOrCname_sound (dns : HickoryNames Name Signature Rest)
    (heq : NamesEquivalence dns) (message : DnsResponse Name Signature Rest)
    (query : Query Name) :
    (∀ ip, extractAddressOrCname dns message query = .ok (.address ip) →
      ∃ passed target, Walk (Alias dns message) query.name passed target ∧
        OwnsAddress dns message query target ip ∧
        ∀ name ∈ passed, Addressless dns message query name) ∧
    (∀ text, extractAddressOrCname dns message query = .ok (.cname text) →
      ∃ passed target, Walk (Alias dns message) query.name passed target ∧ passed ≠ [] ∧
        text = dns.toAscii target ∧ Addressless dns message query target ∧
        (∀ next, ¬ Alias dns message target next) ∧
        ∀ name ∈ passed, Addressless dns message query name) ∧
    (SingleAlias dns message → ∀ passed target,
      Walk (Alias dns message) query.name passed target →
      (∃ again ∈ passed, namesEqual dns.toHickory target again = true) →
      (∀ name ∈ passed, Addressless dns message query name) →
      ∃ e, extractAddressOrCname dns message query = .error e) := by
  obtain ⟨passed, target, hwalk, hpassed, hlookup⟩ :=
    @followCnames_walk _ _ _ dns message query MAX_CNAME_DEPTH query.name false
  refine ⟨fun ip h => ?_, fun text h => ?_, fun hsingle passed target hwalk hagain hpassed => ?_⟩
  · rw [extractAddressOrCname_ok h] at hlookup
    cases hlookup with
    | address howns => exact ⟨passed, target, hwalk, howns, hpassed⟩
  · rw [extractAddressOrCname_ok h] at hlookup
    cases hlookup with
    | cname hfollowed hnone hend =>
      exact ⟨passed, target, hwalk, hfollowed rfl, rfl, hnone, hend, hpassed⟩
  · obtain ⟨again, hmem, htarget⟩ := hagain
    have hclosed : ∀ name ∈ passed, ∃ next, Alias dns message name next ∧
        ∃ again ∈ passed, namesEqual dns.toHickory next again = true := by
      intro name hname
      obtain ⟨next, hnext, hin | hend⟩ := hwalk.next_of_mem hname
      · exact ⟨next, hnext, next, hin, heq.refl next⟩
      · exact ⟨next, hnext, again, hmem, hend ▸ htarget⟩
    have hstart : query.name ∈ passed := by
      rcases hwalk.start_mem with hin | hend
      · exact hin
      · cases hwalk with
        | here => cases hmem
        | step => exact List.mem_cons_self
    unfold extractAddressOrCname
    split
    · exact ⟨_, rfl⟩
    · exact followCnames_cycle heq hsingle hpassed hclosed hstart (heq.refl query.name)

/-- Aliases lead from the question, past names without an address, to an end behind exactly `n`
    records: a name that owns an address, or no further alias. -/
def EndsAfter (dns : HickoryNames Name Signature Rest) (message : DnsResponse Name Signature Rest)
    (query : Query Name) (n : Nat) : Prop :=
  ∃ passed target, Walk (Alias dns message) query.name passed target ∧ passed.length = n ∧
    (∀ name ∈ passed, Addressless dns message query name) ∧
    (¬ Addressless dns message query target ∨ ∀ next, ¬ Alias dns message target next)

/-- **Chains resolve unless they end at the limit**, in whatever order the answers stand: an address
    behind at most `MAX_CNAME_DEPTH` records is found, and the limit is reported for longer chains
    only, exactly if the chain does not end behind `MAX_CNAME_DEPTH` records. There its last name
    would be looked up in the round that is missing. -/
theorem chain_not_at_limit_resolves (dns : HickoryNames Name Signature Rest)
    (heq : NamesEquivalence dns) (message : DnsResponse Name Signature Rest) (query : Query Name)
    (hcode : message.rest.rest.responseCode = .noError) (hsingle : SingleAlias dns message) :
    ((∀ passed target, Walk (Alias dns message) query.name passed target →
      passed.length ≤ MAX_CNAME_DEPTH → (∃ ip, OwnsAddress dns message query target ip) →
      ∃ ip owner, extractAddressOrCname dns message query = .ok (.address ip) ∧
        OwnsAddress dns message query owner ip ∧ owner ∈ passed ++ [target] ∧
        ((∀ name ∈ passed, Addressless dns message query name) → owner = target)) ∧
    (extractAddressOrCname dns message query = .error (.exceeded query.name) →
      ∃ passed target, Walk (Alias dns message) query.name passed target ∧
        MAX_CNAME_DEPTH < passed.length ∧
        ∀ name ∈ passed, Addressless dns message query name)) ↔
      ¬ EndsAfter dns message query MAX_CNAME_DEPTH := by
  have hlookup : extractAddressOrCname dns message query =
      followCnames dns message query MAX_CNAME_DEPTH query.name false := by
    rw [extractAddressOrCname, if_neg (not_not.mpr hcode)]
  rw [hlookup]
  constructor
  · rintro ⟨hfinds, hexceeds⟩ ⟨passed, target, hwalk, hlen, hpassed, hends⟩
    have hlimit : followCnames dns message query MAX_CNAME_DEPTH query.name false =
        .error (.exceeded query.name) := by
      rw [← hlen]
      exact followCnames_exceeds heq hsingle hwalk hpassed hends (heq.refl query.name)
    rcases hends with howns | hend
    · obtain ⟨ip, owner, hfound, -⟩ :=
        hfinds passed target hwalk (Nat.le_of_eq hlen) (not_forall_not.mp howns)
      cases hlimit.symm.trans hfound
    · obtain ⟨longer, end', hlonger, hlen', -⟩ := hexceeds hlimit
      obtain ⟨next, hnext⟩ := walk_goes_on heq hsingle hwalk hlonger (heq.refl query.name)
        (by omega)
      exact hend next hnext
  intro hlimit
  refine ⟨fun passed target hwalk hlen howns => ?_, fun h => ?_⟩
  · have htarget : ¬ Addressless dns message query target := not_forall_not.mpr howns
    obtain ⟨before, owner, hfirst, howner, hbefore, hshort, hmem, hlast⟩ :=
      hwalk.exists_first (fun name => ¬ Addressless dns message query name) htarget
    have hbefore' : ∀ name ∈ before, Addressless dns message query name :=
      fun name hname => not_not.mp (hbefore name hname)
    have hne : before.length ≠ MAX_CNAME_DEPTH := fun hn =>
      hlimit ⟨before, owner, hfirst, hn, hbefore', .inl howner⟩
    obtain ⟨ip, hfound, hip⟩ := followCnames_finds heq hsingle hfirst howner hbefore'
      (Nat.lt_of_le_of_ne (Nat.le_trans hshort hlen) hne) (heq.refl query.name)
    exact ⟨ip, owner, hfound, hip, hmem, fun hnone => hlast fun name hname =>
      not_not.mpr (hnone name hname)⟩
  · obtain ⟨passed, target, hwalk, hpassed, hend⟩ :=
      @followCnames_walk _ _ _ dns message query MAX_CNAME_DEPTH query.name false
    rw [h] at hend
    cases hend with
    | exceeded hlen =>
      -- The name at the limit is not the end of the chain, so there is one record more.
      have hgoes : Addressless dns message query target ∧
          ∃ next, Alias dns message target next := by
        by_contra hstop
        refine hlimit ⟨passed, target, hwalk, hlen, hpassed, ?_⟩
        rw [not_and_or, not_exists] at hstop
        exact hstop
      obtain ⟨hnone, next, hnext⟩ := hgoes
      refine ⟨passed ++ [target], next, hwalk.snoc hnext, by simp [hlen], ?_⟩
      simpa [or_imp, forall_and] using ⟨hpassed, hnone⟩

end Lookup

/-! ## 7. Chains of any length -/

/-- Names are numbers, equal or not. -/
def numberedNames : HickoryNames Nat Unit Unit where
  fromVec _ := .error "not a message"
  toVec _ := .ok []
  isAaaa record := record.data matches .aaaa _
  eqIgnoreRoot left right := left == right
  toAscii name := Nat.toDigits 10 name
  typeDebug _ := "A"

theorem namesEqual_numberedNames (left right : Nat) :
    namesEqual numberedNames.toHickory left right = true ↔ left = right :=
  beq_iff_eq

theorem numberedNames_equivalence : NamesEquivalence numberedNames where
  refl name := (namesEqual_numberedNames name name).mpr rfl
  symm h := (namesEqual_numberedNames _ _).mpr ((namesEqual_numberedNames _ _).mp h).symm
  trans h h' := (namesEqual_numberedNames _ _).mpr
    (((namesEqual_numberedNames _ _).mp h).trans ((namesEqual_numberedNames _ _).mp h'))

/-- A chain of `n` aliases from name 0, and the address of its last name. -/
def chainResponse (n : Nat) : DnsResponse Nat Unit Unit where
  answers := ⟨n, 60, 1, .a 0x01020304⟩ :: (List.range n).map fun i => ⟨i, 60, 1, .cname (i + 1)⟩
  authorities := []
  additionals := []
  authenticData := false
  signature := none
  rest := ⟨1, .response, .query, [⟨0, 1, 1⟩], ⟨.noError, false, false, true, ()⟩⟩

def chainQuery : Query Nat := ⟨0, 1, 1⟩

theorem alias_chainResponse {n name target : Nat} :
    Alias numberedNames (chainResponse n) name target ↔ name < n ∧ target = name + 1 := by
  constructor
  · rintro ⟨answer, hmem, howner, hdata⟩
    have howner := (namesEqual_numberedNames _ _).mp howner
    rcases List.mem_cons.mp hmem with rfl | hmem
    · cases hdata
    · obtain ⟨i, hi, rfl⟩ := List.mem_map.mp hmem
      cases hdata
      cases howner
      exact ⟨List.mem_range.mp hi, rfl⟩
  · rintro ⟨hlt, rfl⟩
    refine ⟨⟨name, 60, 1, .cname (name + 1)⟩, ?_, (namesEqual_numberedNames _ _).mpr rfl, rfl⟩
    exact List.mem_cons_of_mem _ (List.mem_map.mpr ⟨name, List.mem_range.mpr hlt, rfl⟩)

theorem singleAlias_chainResponse (n : Nat) : SingleAlias numberedNames (chainResponse n) := by
  intro name target other htarget hother
  rw [namesEqual_numberedNames, (alias_chainResponse.mp htarget).2,
    (alias_chainResponse.mp hother).2]

theorem walk_chainResponse {n : Nat} (k : Nat) (h : k ≤ n) :
    Walk (Alias numberedNames (chainResponse n)) 0 (List.range k) k := by
  induction k with
  | zero => exact .here 0
  | succ k ih =>
    rw [List.range_succ]
    exact (ih (Nat.le_of_succ_le h)).snoc (alias_chainResponse.mpr ⟨h, rfl⟩)

/-- A walk is no longer than the chain. -/
theorem length_walk_chainResponse {n start target : Nat} {passed : List Nat}
    (hwalk : Walk (Alias numberedNames (chainResponse n)) start passed target) :
    passed ≠ [] → start + passed.length ≤ n := by
  induction hwalk with
  | here => exact fun hne => absurd rfl hne
  | @step a b z passed first walk ih =>
    intro _
    obtain ⟨hlt, rfl⟩ := alias_chainResponse.mp first
    rw [List.length_cons]
    cases passed with
    | nil => exact hlt
    | cons e passed =>
      have := ih (List.cons_ne_nil _ _)
      omega

theorem ownsAddress_chainResponse (n : Nat) :
    OwnsAddress numberedNames (chainResponse n) chainQuery n (.v4 0x01020304) :=
  ⟨⟨n, 60, 1, .a 0x01020304⟩, List.mem_cons_self, (namesEqual_numberedNames n n).mpr rfl, rfl⟩

theorem sample_extractAddressOrCname_sound :
    ∃ passed target, Walk (Alias numberedNames (chainResponse 3)) 0 passed target ∧
      OwnsAddress numberedNames (chainResponse 3) chainQuery target (.v4 0x01020304) ∧
      ∀ name ∈ passed, Addressless numberedNames (chainResponse 3) chainQuery name :=
  (extractAddressOrCname_sound numberedNames numberedNames_equivalence (chainResponse 3)
    chainQuery).1 (.v4 0x01020304) rfl

theorem sample_chain_not_at_limit_resolves :
    ∃ ip owner, extractAddressOrCname numberedNames (chainResponse 7) chainQuery =
        .ok (.address ip) ∧
      OwnsAddress numberedNames (chainResponse 7) chainQuery owner ip ∧
      owner ∈ List.range 7 ++ [7] ∧
      ((∀ name ∈ List.range 7, Addressless numberedNames (chainResponse 7) chainQuery name) →
        owner = 7) := by
  have hlimit : ¬ EndsAfter numberedNames (chainResponse 7) chainQuery MAX_CNAME_DEPTH := by
    rintro ⟨passed, target, hwalk, hlen, -, -⟩
    have hne : passed ≠ [] := fun hnil => by
      rw [hnil] at hlen
      cases hlen
    have hshort := length_walk_chainResponse hwalk hne
    rw [hlen] at hshort
    exact absurd hshort (by decide)
  exact ((chain_not_at_limit_resolves numberedNames numberedNames_equivalence (chainResponse 7)
    chainQuery rfl (singleAlias_chainResponse 7)).mpr hlimit).1 (List.range 7) 7
    (walk_chainResponse 7 (Nat.le_refl 7)) (by decide) ⟨_, ownsAddress_chainResponse 7⟩

/-- A chain of eight records without a circle, with an address at its end, is reported to exceed
    eight records. -/
theorem chain_at_limit_exceeds :
    SingleAlias numberedNames (chainResponse MAX_CNAME_DEPTH) ∧
      (chainResponse MAX_CNAME_DEPTH).rest.rest.responseCode = .noError ∧
      Walk (Alias numberedNames (chainResponse MAX_CNAME_DEPTH)) chainQuery.name
        (List.range MAX_CNAME_DEPTH) 8 ∧
      (List.range MAX_CNAME_DEPTH ++ [8]).Nodup ∧
      OwnsAddress numberedNames (chainResponse MAX_CNAME_DEPTH) chainQuery 8 (.v4 0x01020304) ∧
      extractAddressOrCname numberedNames (chainResponse MAX_CNAME_DEPTH) chainQuery =
        .error (.exceeded 0) :=
  ⟨singleAlias_chainResponse 8, rfl, walk_chainResponse 8 (Nat.le_refl 8), by decide,
    ownsAddress_chainResponse 8, rfl⟩

end Tun2Proxy
