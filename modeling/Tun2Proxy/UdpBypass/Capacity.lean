/-
  File:      Tun2Proxy/UdpBypass/Capacity.lean
  Subject:   How many endpoints the pool holds, and which of them `open_with` closes.

  The number of endpoints is a matter of the methods alone, whatever their calls return
  (`Prog.Outcome`).

  Which endpoints are closed depends on what flows and receiver tasks do in between. Until
  `open_with` registers its flow, routes only go away: an endpoint whose token is cancelled stays
  so, and one without routes stays without and keeps its last activity (`Settles`). What a method
  has seen of such an endpoint is still true when it closes it.
-/
import Tun2Proxy.UdpBypass.Isolation

open Relation

namespace Tun2Proxy.UdpBypass

open Prog (Safe Setting Outcome outcome_pure outcome_bind outcome_perform)

variable {w w' w'' : World} {e : Nat} {endpoints : Endpoints}

/-! ## 1. The number of endpoints -/

section Length

variable {out : Endpoints}

theorem retainLoop_length {wanted : SocketAddr → Endpoint → Bool}
    {l : List (SocketAddr × Endpoint)} (h : Outcome (retainLoop wanted l endpoints) out) :
    out.entries.length ≤ endpoints.entries.length := by
  induction l generalizing endpoints with
  | nil =>
    cases h
    exact le_rfl
  | cons x rest ih =>
    have hclose : Outcome (do
        Method.close x.2
        retainLoop wanted rest (endpoints.erase x.1)) out →
        out.entries.length ≤ endpoints.entries.length := by
      intro h
      obtain ⟨-, h⟩ := outcome_perform.mp h
      exact (ih h).trans (AList.length_erase_le endpoints x.1)
    unfold retainLoop at h
    cases hwanted : wanted x.1 x.2 with
    | false =>
      rw [hwanted] at h
      exact hclose h
    | true =>
      rw [hwanted] at h
      obtain ⟨expired, h⟩ := outcome_perform.mp h
      cases expired with
      | false => exact ih h
      | true => exact hclose h

theorem retain_length {wanted : SocketAddr → Endpoint → Bool}
    (h : Outcome (retain wanted endpoints) out) :
    out.entries.length ≤ endpoints.entries.length := by
  obtain ⟨l, h⟩ := outcome_perform.mp h
  exact retainLoop_length h

theorem retireStale_length {request : FlowRequest}
    (h : Outcome (retireStale request endpoints) out) :
    out.entries.length ≤ endpoints.entries.length := by
  unfold retireStale at h
  split at h
  case h_1 =>
    cases h
    exact le_rfl
  case h_2 =>
    split at h
    case isTrue =>
      obtain ⟨-, h⟩ := outcome_perform.mp h
      cases h
      exact AList.length_erase_le endpoints request.source
    case isFalse =>
      cases h
      exact le_rfl

/-- Where there is room, there is room for one more. -/
theorem makeRoom_length {limit : Nat} (hle : endpoints.entries.length ≤ limit)
    (h : Outcome (makeRoom limit endpoints) (some out)) : out.entries.length < limit := by
  unfold makeRoom at h
  split at h
  case isTrue =>
    obtain ⟨l, h⟩ := outcome_perform.mp h
    obtain ⟨found, -, h⟩ := outcome_bind.mp h
    split at h
    case h_1 => cases h
    case h_2 =>
      split at h
      case h_1 => cases h
      case h_2 endpoint hlookup =>
        obtain ⟨-, h⟩ := outcome_perform.mp h
        cases h
        exact (AList.length_erase_lt (AList.mem_of_lookup hlookup)).trans_le hle
  case isFalse hroom =>
    cases h
    exact not_le.mp hroom

theorem endpointFor_length {request : FlowRequest} {limit : Nat}
    {found : Except Error (Option Endpoint)} (hle : endpoints.entries.length ≤ limit)
    (h : Outcome (endpointFor request limit endpoints) (found, out)) :
    out.entries.length ≤ limit := by
  unfold endpointFor at h
  split at h
  case h_1 =>
    cases h
    exact hle
  case h_2 =>
    obtain ⟨room, hroom, h⟩ := outcome_bind.mp h
    split at h
    case h_1 =>
      cases h
      exact hle
    case h_2 left =>
      have hlt := makeRoom_length hle hroom
      obtain ⟨bound, h⟩ := outcome_perform.mp h
      split at h
      case h_1 =>
        cases h
        exact hlt.le
      case h_2 =>
        cases h
        exact (AList.length_insert_le left _ _).trans hlt

end Length

/-- The pool is within its limit. -/
def Pool.Within (limit : Nat) (pool : Pool) : Prop :=
  pool.limit = limit ∧ pool.endpoints.entries.length ≤ limit

theorem Pool.Within.openWith {limit : Nat} {pool : Pool} (hw : pool.Within limit)
    {request : FlowRequest} {out : Except Error (Option Nat) × Pool}
    (h : Outcome (openWith request pool) out) : out.2.Within limit := by
  obtain ⟨rfl, hle⟩ := hw
  unfold UdpBypass.openWith at h
  split at h
  case isTrue =>
    cases h
    exact ⟨rfl, hle⟩
  case isFalse =>
    obtain ⟨kept, hkept, h⟩ := outcome_bind.mp h
    obtain ⟨left, hleft, h⟩ := outcome_bind.mp h
    obtain ⟨⟨found, endpoints⟩, hfound, h⟩ := outcome_bind.mp h
    have hle₂ := (retireStale_length hleft).trans ((retain_length hkept).trans hle)
    have hle₃ := endpointFor_length hle₂ hfound
    dsimp only at h
    split at h
    case h_1 =>
      cases h
      exact ⟨rfl, hle₃⟩
    case h_2 =>
      cases h
      exact ⟨rfl, hle₃⟩
    case h_3 =>
      obtain ⟨flow, h⟩ := outcome_perform.mp h
      cases h
      exact ⟨rfl, hle₃⟩

theorem Pool.Within.maintainWith {limit : Nat} {pool out : Pool} (hw : pool.Within limit)
    {owners : Option UdpOwners} {interface : Option BindInterface}
    (h : Outcome (maintainWith owners interface pool) out) : out.Within limit := by
  obtain ⟨rfl, hle⟩ := hw
  obtain ⟨unknown, -, h⟩ := outcome_bind.mp h
  obtain ⟨kept, hkept, h⟩ := outcome_bind.mp h
  cases h
  exact ⟨rfl, (retain_length hkept).trans hle⟩

theorem Pool.Within.shutdown {limit : Nat} {pool out : Pool} (hw : pool.Within limit)
    (h : Outcome (shutdown pool) out) : out.Within limit := by
  obtain ⟨l, h⟩ := outcome_perform.mp h
  obtain ⟨-, -, h⟩ := outcome_bind.mp h
  cases h
  exact ⟨hw.1, Nat.zero_le limit⟩

/-- Every method keeps the pool within its limit. -/
theorem next_within {limit : Nat} {phase out : Phase} {p : Method Phase} (h : Next phase p)
    (hw : phase.pool.Within limit) (hout : Outcome p out) : out.pool.Within limit := by
  cases h with
  | openWith request =>
    obtain ⟨⟨flow, pool⟩, hcall, hout⟩ := outcome_bind.mp hout
    cases hout
    have hpool := hw.openWith hcall
    unfold Phase.returned
    split
    case h_1 heq =>
      cases heq
      exact hpool
    case h_2 heq =>
      cases heq
      exact hpool
  | maintainWith owners interface =>
    obtain ⟨pool, hcall, hout⟩ := outcome_bind.mp hout
    cases hout
    exact hw.maintainWith hcall
  | shutdown =>
    obtain ⟨pool, hcall, hout⟩ := outcome_bind.mp hout
    cases hout
    exact hw.shutdown hcall

/-- **The pool is within its limit whenever its lock is free.** -/
theorem run_within {limit : Nat} {phase : Phase}
    (h : ReflTransGen Move (pure (Phase.new limit), World.start) (pure phase, w)) :
    phase.pool.Within (min limit 1024) := by
  let S : Setting World PoolOp PoolOp.Result := ⟨PoolOp.Step, Others, fun _ _ => True⟩
  have hnext : ∀ a p, Next a p →
      Prog.Triple S (fun _ => a.pool.Within (min limit 1024)) p
        (fun out _ => out.pool.Within (min limit 1024)) := by
    intro a p hn w₁ hw
    have houtcome : Safe S p (fun out _ => True ∧ Outcome p out) w₁ :=
      (Safe.of_allowed fun _ _ => trivial).outcome
    exact houtcome.mono fun out _ hout => next_within hn hw hout.2
  have hstart : Safe S (pure (Phase.new limit) : Method Phase)
      (fun out _ => out.pool.Within (min limit 1024)) .start :=
    fun _ _ => ⟨rfl, Nat.zero_le _⟩
  exact (Safe.reach hnext hstart h).result

/-! ## 2. What stays true until a route is added -/

namespace World

/-- The endpoint has no routes, and this is its last activity. -/
def Idle (w : World) (e activity : Nat) : Prop :=
  ∃ st, w.endpoints[e]? = some st ∧ st.routes.entries = [] ∧ st.lastActivity = activity

/-- The token of the endpoint is cancelled. -/
def Cancelled (w : World) (e : Nat) : Prop := ∃ st, w.endpoints[e]? = some st ∧ st.closed = true

theorem Idle.unique {a b : Nat} (ha : w.Idle e a) (hb : w.Idle e b) : a = b := by
  grind [Idle]

theorem idleSince_eq_some {a : Nat} : w.idleSince e = some a ↔ w.Idle e a := by
  grind [idleSince, Idle]

theorem Idle.modifyEndpoint {x a : Nat} {f : EndpointState → EndpointState} (h : w.Idle x a)
    (hf : ∀ st, w.endpoints[e]? = some st → st.routes.entries = [] →
      (f st).routes.entries = [] ∧ (f st).lastActivity = st.lastActivity) :
    (w.modifyEndpoint e f).Idle x a := by
  grind [Idle]

theorem Cancelled.modifyEndpoint {x : Nat} {f : EndpointState → EndpointState}
    (h : w.Cancelled x) (hf : ∀ st, st.closed = true → (f st).closed = true) :
    (w.modifyEndpoint e f).Cancelled x := by
  grind [Cancelled]

theorem Idle.close {x a : Nat} (h : w.Idle x a) (e : Nat) : (w.close e).Idle x a :=
  h.modifyEndpoint fun _ _ _ => ⟨rfl, rfl⟩

theorem Cancelled.close {x : Nat} (h : w.Cancelled x) (e : Nat) : (w.close e).Cancelled x :=
  h.modifyEndpoint fun _ _ => rfl

/-- What is sent or received goes through a route, so that an endpoint without keeps its last
    activity. -/
theorem Idle.others {x a : Nat} (hs : Sound w) (h : w.Idle x a) (hstep : Others w w') :
    w'.Idle x a := by
  have hnone : ∀ {st : EndpointState} {peer : SocketAddr} {i : Nat}, st.routes.entries = [] →
      st.routes.lookup peer ≠ some i := by
    intro st peer i hempty hroute
    have hmem := AList.mem_lookup_iff.mp hroute
    rw [hempty] at hmem
    exact List.not_mem_nil hmem
  cases hstep with
  | tick | take | inject => exact h
  | @dropFlow i flow hflow halive =>
    rw [World.dropFlow, hflow]
    refine h.modifyEndpoint fun st _ hempty => ⟨?_, rfl⟩
    show st.routes.entries.kerase flow.request.peer = []
    rw [hempty]
    rfl
  | send payload hflow halive hst hopen =>
    refine h.modifyEndpoint fun st' hst' hempty => ?_
    obtain rfl := Option.some.inj (hst.symm.trans hst')
    exact absurd (hs.alive_routed hflow halive hst hopen) (hnone hempty)
  | @route e i st flow peer bytes hst hreceived hroute hflow hroom =>
    refine h.modifyEndpoint fun st' hst' hempty => ?_
    obtain rfl := Option.some.inj (hst.symm.trans hst')
    exact absurd hroute (hnone hempty)
  | recvFrom | lose | leave | abort => exact h.modifyEndpoint fun _ _ hempty => ⟨hempty, rfl⟩
  | exit => exact (h.close _).modifyEndpoint fun _ _ hempty => ⟨hempty, rfl⟩

theorem Cancelled.others {x : Nat} (h : w.Cancelled x) (hstep : Others w w') : w'.Cancelled x := by
  cases hstep with
  | tick | take | inject => exact h
  | dropFlow hflow halive =>
    rw [World.dropFlow, hflow]
    exact h.modifyEndpoint fun _ => id
  | send | recvFrom | route | lose | leave => exact h.modifyEndpoint fun _ => id
  | exit => exact (h.close _).modifyEndpoint fun _ => id
  | abort => exact h.modifyEndpoint fun _ _ => rfl

end World

/-- **What stays true of a world to which no route is added.** -/
structure Settles (w w' : World) : Prop extends Extends w w' where
  sound : Sound w'
  cancelled : ∀ e, w.Cancelled e → w'.Cancelled e
  idle : ∀ e a, w.Idle e a → w'.Idle e a

/-- The operations that add no route. -/
def PoolOp.Quiet : PoolOp → Prop
  | .register _ _ => False
  | _ => True

namespace Settles

theorem refl (h : Sound w) : Settles w w := ⟨.refl w, h, fun _ => id, fun _ _ => id⟩

theorem trans (h : Settles w w') (h' : Settles w' w'') : Settles w w'' :=
  ⟨h.toExtends.trans h'.toExtends, h'.sound, fun e hc => h'.cancelled e (h.cancelled e hc),
    fun e a hi => h'.idle e a (h.idle e a hi)⟩

theorem reach (hs : Sound w) (h : ReflTransGen Others w w') : Settles w w' := by
  induction h with
  | refl => exact refl hs
  | tail _ hstep ih =>
    exact ih.trans ⟨.others hstep, ih.sound.others hstep, fun _ hc => hc.others hstep,
      fun _ _ hi => hi.others ih.sound hstep⟩

theorem step (hs : Sound w) {op : PoolOp} (hop : op.Quiet) {r : op.Result}
    (h : op.Step w r w') : Settles w w' := by
  refine ⟨.step h, hs.step h, fun x hc => ?_, fun x a hi => ?_⟩
  · cases h with
    | now | iter | expired | idleSince | bindFails => exact hc
    | close e => exact hc.close e
    | bind => grind [World.Cancelled]
    | register => exact hop.elim
  · cases h with
    | now | iter | expired | idleSince | bindFails => exact hi
    | close e => exact hi.close e
    | bind => grind [World.Idle]
    | register => exact hop.elim

end Settles

/-- The methods among flows and receiver tasks, with the calls they have to justify. -/
abbrev calls (allowed : World → PoolOp → Prop) : Setting World PoolOp PoolOp.Result :=
  ⟨PoolOp.Step, Others, allowed⟩

section Rules

variable {allowed : World → PoolOp → Prop} {α : Type} {Q : α → World → Prop}

theorem settled_pure {a : α} (hs : Sound w) (h : ∀ w', Settles w w' → Q a w') :
    Safe (calls allowed) (pure a : Method α) Q w :=
  fun w' hw => h w' (.reach hs hw)

theorem settled_call {op : PoolOp} {f : op.Result → Method α} (hs : Sound w) (hop : op.Quiet)
    (hok : ∀ w', Settles w w' → allowed w' op)
    (hf : ∀ r w₁ w₂, Settles w w₁ → op.Step w₁ r w₂ → Settles w w₂ →
      Safe (calls allowed) (f r) Q w₂) :
    Safe (calls allowed) (Prog.perform op >>= f) Q w := by
  intro w₁ hw
  have h₁ := Settles.reach hs hw
  exact ⟨hok w₁ h₁, fun r w₂ hstep => hf r w₁ w₂ h₁ hstep (h₁.trans (.step h₁.sound hop hstep))⟩

end Rules

/-- The order in which a map is walked has its entries, and no others. -/
theorem mem_iter {l : List (SocketAddr × Endpoint)}
    (h : l.Perm (endpoints.entries.map fun x => (x.1, x.2))) {source : SocketAddr}
    {endpoint : Endpoint} : (source, endpoint) ∈ l ↔ endpoints.lookup source = some endpoint := by
  simp [h.mem_iff, ← AList.mem_lookup_iff, Sigma.exists]

/-! ## 3. Making room -/

/-- The endpoint is one of the map that has no routes, and none that had no routes in the world
    `w₁` was last active before it. -/
def Evicts (endpoints : Endpoints) (w₁ w : World) (e : Nat) : Prop :=
  ∃ source endpoint a, endpoints.lookup source = some endpoint ∧ endpoint.id = e ∧ w.Idle e a ∧
    ∀ source' endpoint' b, endpoints.lookup source' = some endpoint' →
      w₁.Idle endpoint'.id b → a ≤ b

/-- What the search has found when the entries `rest` are still ahead of it. -/
structure OldestSoFar (endpoints : Endpoints) (w₁ w : World) (rest : List (SocketAddr × Endpoint))
    (oldest : Option (SocketAddr × Nat)) : Prop where
  found : ∀ source a, oldest = some (source, a) →
    ∃ endpoint, endpoints.lookup source = some endpoint ∧ w.Idle endpoint.id a
  least : ∀ source endpoint b, endpoints.lookup source = some endpoint → w₁.Idle endpoint.id b →
    (source, endpoint) ∈ rest ∨ ∃ found a, oldest = some (found, a) ∧ a ≤ b

section Search

variable {w₁ : World} {rest : List (SocketAddr × Endpoint)} {source : SocketAddr}
  {endpoint : Endpoint} {oldest : Option (SocketAddr × Nat)}

theorem OldestSoFar.mono (h : OldestSoFar endpoints w₁ w rest oldest) (hw : Settles w w') :
    OldestSoFar endpoints w₁ w' rest oldest := by
  refine ⟨fun source a heq => ?_, h.least⟩
  obtain ⟨endpoint, hl, hidle⟩ := h.found source a heq
  exact ⟨endpoint, hl, hw.idle _ _ hidle⟩

/-- An endpoint with routes is passed over. -/
theorem OldestSoFar.skip (h : OldestSoFar endpoints w₁ w ((source, endpoint) :: rest) oldest)
    (hw : Settles w₁ w) (hbusy : w.idleSince endpoint.id = none) :
    OldestSoFar endpoints w₁ w rest oldest := by
  refine ⟨h.found, fun source' endpoint' b hl hidle => ?_⟩
  have hstill := World.idleSince_eq_some.mpr (hw.idle _ _ hidle)
  grind [h.least]

/-- An endpoint without routes is compared with the oldest so far. -/
theorem OldestSoFar.compare
    (h : OldestSoFar endpoints w₁ w ((source, endpoint) :: rest) oldest) (hw : Settles w₁ w)
    (hl : endpoints.lookup source = some endpoint) {activity : Nat}
    (hidle : w.idleSince endpoint.id = some activity) {next : Option (SocketAddr × Nat)}
    (hnext : next = some (source, activity) ∧ (∀ found a, oldest = some (found, a) → activity ≤ a) ∨
      next = oldest ∧ ∃ found a, oldest = some (found, a) ∧ a ≤ activity) :
    OldestSoFar endpoints w₁ w rest next := by
  have hidle := World.idleSince_eq_some.mp hidle
  constructor
  case found => grind [h.found]
  case least =>
    intro source' endpoint' b hl' hidle'
    have hstill := hw.idle _ _ hidle'
    grind [h.least, World.Idle.unique]

variable {allowed : World → PoolOp → Prop}

theorem oldestIdle_safe (hreads : ∀ w e, allowed w (.idleSince e)) (hw : Settles w₁ w)
    (hl : ∀ x ∈ rest, endpoints.lookup x.1 = some x.2)
    (h : OldestSoFar endpoints w₁ w rest oldest) :
    Safe (calls allowed) (oldestIdle rest oldest)
      (fun found w' => Settles w₁ w' ∧ OldestSoFar endpoints w₁ w' [] found) w := by
  induction rest generalizing oldest w with
  | nil => exact settled_pure hw.sound fun w' hw' => ⟨hw.trans hw', h.mono hw'⟩
  | cons x rest ih =>
    have hrest : ∀ y ∈ rest, endpoints.lookup y.1 = some y.2 :=
      fun y hy => hl y (List.mem_cons_of_mem _ hy)
    have hx := hl x List.mem_cons_self
    refine settled_call hw.sound trivial (fun w' _ => hreads w' _)
      fun idle w₂ w₃ _ hstep hw₃ => ?_
    have h₃ := h.mono hw₃
    have hw₃ := hw.trans hw₃
    cases hstep
    cases hidle : w₂.idleSince x.2.id with
    | none => exact ih hw₃ hrest (h₃.skip hw₃ hidle)
    | some activity =>
      cases oldest with
      | none => exact ih hw₃ hrest (h₃.compare hw₃ hx hidle (.inl ⟨rfl, nofun⟩))
      | some found =>
        refine ih hw₃ hrest (h₃.compare hw₃ hx hidle ?_)
        by_cases hlt : activity < found.2
        · refine .inl ⟨if_pos hlt, fun source a heq => ?_⟩
          cases heq
          exact hlt.le
        · exact .inr ⟨if_neg hlt, found.1, found.2, rfl, not_lt.mp hlt⟩

/-- **To make room, an endpoint goes that `Evicts`.** -/
theorem makeRoom_safe (limit : Nat) (hs : Sound w)
    (hreads : ∀ w op, (∀ e, op ≠ PoolOp.close e) → allowed w op)
    (hclose : ∀ w' e, Evicts endpoints w w' e → allowed w' (.close e)) :
    Safe (calls allowed) (makeRoom limit endpoints) (fun _ w' => Sound w') w := by
  unfold makeRoom
  split
  case isFalse => exact settled_pure hs fun _ hw' => hw'.sound
  case isTrue =>
    refine settled_call hs trivial (fun w' _ => hreads w' _ nofun) fun l w₁ w₂ hw₁ hstep hw₂ => ?_
    cases hstep with
    | iter hperm =>
    have hstart : OldestSoFar endpoints w w₁ l none :=
      ⟨nofun, fun source endpoint b hl _ => .inl ((mem_iter hperm).mpr hl)⟩
    refine (oldestIdle_safe (fun w' e => hreads w' _ nofun) hw₂
      (fun x hx => (mem_iter hperm).mp hx) hstart).seq fun found w₃ h₃ => ?_
    obtain ⟨hw₃, holdest⟩ := h₃
    split
    case h_1 => exact settled_pure hw₃.sound fun _ hw' => hw'.sound
    case h_2 source a =>
      split
      case h_1 => exact settled_pure hw₃.sound fun _ hw' => hw'.sound
      case h_2 endpoint hl =>
        refine settled_call hw₃.sound trivial (fun w' hw' => hclose w' _ ?_)
          fun _ w₄ w₅ _ _ hw₅ => settled_pure hw₅.sound fun _ hw' => hw'.sound
        obtain ⟨endpoint', hl', hidle⟩ := holdest.found source a rfl
        obtain rfl := Option.some.inj (hl.symm.trans hl')
        refine ⟨source, endpoint, a, hl, rfl, hw'.idle _ _ hidle,
          fun source' other b hb hidle' => ?_⟩
        rcases holdest.least source' other b hb hidle' with hmem | ⟨found, least, heq, hle⟩
        · exact absurd hmem List.not_mem_nil
        · cases heq
          exact hle

theorem endpointFor_safe (request : FlowRequest) (limit : Nat) (hs : Sound w)
    (hreads : ∀ w op, (∀ e, op ≠ PoolOp.close e) → allowed w op)
    (hclose : ∀ w' e, Evicts endpoints w w' e → allowed w' (.close e)) :
    Safe (calls allowed) (endpointFor request limit endpoints) (fun _ w' => Sound w') w := by
  unfold endpointFor
  split
  case h_1 => exact settled_pure hs fun _ hw' => hw'.sound
  case h_2 =>
    refine (makeRoom_safe limit hs hreads hclose).seq fun room w₁ hs₁ => ?_
    split
    case h_1 => exact settled_pure hs₁ fun _ hw' => hw'.sound
    case h_2 left =>
      refine settled_call hs₁ trivial (fun w' _ => hreads w' _ nofun) fun bound w₂ w₃ _ _ hw₃ => ?_
      split
      case h_1 => exact settled_pure hw₃.sound fun _ hw' => hw'.sound
      case h_2 => exact settled_pure hw₃.sound fun _ hw' => hw'.sound

end Search

/-! ## 4. Which endpoints are closed -/

/-- An endpoint with routes is closed only if its token is cancelled, or if it is that of the
    source of the request and of another owner or on another interface. -/
def Closing (request : FlowRequest) (w : World) : PoolOp → Prop
  | .close e => ∀ st, w.endpoints[e]? = some st → st.routes.entries ≠ [] →
      st.closed = true ∨ st.source = request.source ∧
        (st.endpoint.owner ≠ request.owner ∨
          st.endpoint.usesInterface request.source request.interface = false)
  | _ => True

/-- The endpoint may go in any case. -/
def World.Unused (w : World) (e : Nat) : Prop := w.Cancelled e ∨ ∃ a, w.Idle e a

theorem World.Unused.mono (h : w.Unused e) (hw : Settles w w') : w'.Unused e := by
  rcases h with h | ⟨a, h⟩
  · exact .inl (hw.cancelled e h)
  · exact .inr ⟨a, hw.idle e a h⟩

theorem World.Unused.closing {request : FlowRequest} (h : w.Unused e) :
    Closing request w (.close e) := by
  intro st hst hroutes
  grind [World.Unused, World.Cancelled, World.Idle]

theorem unused_of_expired {endpoint : Endpoint} {source : SocketAddr}
    (hc : CreatedFor w endpoint source) (h : w.expired endpoint.id = true) :
    w.Unused endpoint.id := by
  obtain ⟨st, hst, -, -⟩ := hc
  rw [World.expired, hst] at h
  rcases (Bool.or_eq_true _ _).mp h with hclosed | hidle
  · exact .inl ⟨st, hst, hclosed⟩
  · exact .inr ⟨_, st, hst, List.isEmpty_iff.mp ((Bool.and_eq_true _ _).mp hidle).1, rfl⟩

section Closing

variable {request : FlowRequest}

theorem closing_of_ne {op : PoolOp} (h : ∀ e, op ≠ .close e) : Closing request w op := by
  cases op with
  | close e => exact absurd rfl (h e)
  | _ => trivial

theorem retainLoop_closing {l : List (SocketAddr × Endpoint)} (hs : Sound w)
    (hfiled : Filed endpoints w) (hl : ∀ x ∈ l, CreatedFor w x.2 x.1) :
    Safe (calls (Closing request)) (retainLoop (fun _ _ => true) l endpoints)
      (fun out w' => Sound w' ∧ Filed out w') w := by
  induction l generalizing endpoints w with
  | nil => exact settled_pure hs fun w' hw' => ⟨hw'.sound, hfiled.mono hw'.toExtends⟩
  | cons x rest ih =>
    have hrest : ∀ w', Settles w w' → ∀ y ∈ rest, CreatedFor w' y.2 y.1 :=
      fun w' hw' y hy => (hl y (List.mem_cons_of_mem _ hy)).mono hw'.toExtends
    refine settled_call hs trivial (fun _ _ => trivial) fun expired w₁ w₂ hw₁ hstep hw₂ => ?_
    cases hstep
    cases hexpired : w₁.expired x.2.id with
    | false => exact ih hw₂.sound (hfiled.mono hw₂.toExtends) (hrest w₁ hw₂)
    | true =>
      have hunused : w₁.Unused x.2.id :=
        unused_of_expired ((hl x List.mem_cons_self).mono hw₁.toExtends) hexpired
      refine settled_call hw₂.sound trivial (fun w' hw' => (hunused.mono hw').closing)
        fun _ w₃ w₄ _ _ hw₄ => ?_
      have hw₄ := hw₂.trans hw₄
      exact ih hw₄.sound ((hfiled.mono hw₄.toExtends).erase x.1) (hrest w₄ hw₄)

theorem retain_closing (hs : Sound w) (hfiled : Filed endpoints w) :
    Safe (calls (Closing request)) (retain (fun _ _ => true) endpoints)
      (fun out w' => Sound w' ∧ Filed out w') w := by
  refine settled_call hs trivial (fun _ _ => trivial) fun l w₁ w₂ _ hstep hw₂ => ?_
  cases hstep with
  | iter hperm =>
  have hfiled := hfiled.mono hw₂.toExtends
  exact retainLoop_closing hw₂.sound hfiled fun x hx => hfiled _ _ ((mem_iter hperm).mp hx)

theorem retireStale_closing (hs : Sound w) (hfiled : Filed endpoints w) :
    Safe (calls (Closing request)) (retireStale request endpoints) (fun _ w' => Sound w') w := by
  unfold retireStale
  split
  case h_1 => exact settled_pure hs fun _ hw' => hw'.sound
  case h_2 endpoint hl =>
    split
    case isFalse => exact settled_pure hs fun _ hw' => hw'.sound
    case isTrue hstale =>
      refine settled_call hs trivial (fun w' hw' st hst _ => ?_)
        fun _ w₁ w₂ _ _ hw₂ => settled_pure hw₂.sound fun _ hw' => hw'.sound
      obtain ⟨st', hst', hendpoint, hsource⟩ := (hfiled _ _ hl).mono hw'.toExtends
      obtain rfl := Option.some.inj (hst.symm.trans hst')
      rw [hendpoint]
      exact .inr ⟨hsource, hstale⟩

theorem openWith_closing {pool : Pool} (hs : Sound w) (hfiled : Filed pool.endpoints w) :
    Safe (calls (Closing request)) (openWith request pool) (fun _ _ => True) w := by
  unfold openWith
  split
  case isTrue => exact fun _ _ => trivial
  case isFalse =>
    refine (retain_closing hs hfiled).seq fun kept w₁ h₁ => ?_
    refine (retireStale_closing h₁.1 h₁.2).seq fun left w₂ hs₂ => ?_
    refine (endpointFor_safe request pool.limit hs₂ (fun _ _ => closing_of_ne) ?_).seq
      fun found w₃ hs₃ => ?_
    · intro w' e hevicts
      obtain ⟨-, -, a, -, -, hidle, -⟩ := hevicts
      exact World.Unused.closing (.inr ⟨a, hidle⟩)
    · obtain ⟨found, endpoints⟩ := found
      dsimp only
      split
      case h_1 => exact fun _ _ => trivial
      case h_2 => exact fun _ _ => trivial
      case h_3 => exact fun _ _ => ⟨trivial, fun _ _ _ _ _ => trivial⟩

end Closing

/-! ## 5. A pool whose endpoints are all in use -/

/-- Every endpoint of the map is open and has routes. -/
def Busy (endpoints : Endpoints) (w : World) : Prop :=
  ∀ source endpoint, endpoints.lookup source = some endpoint →
    ∃ st, w.endpoints[endpoint.id]? = some st ∧ st.closed = false ∧ st.routes.entries ≠ []

/-- The methods while the endpoints of the map stay in use. They may not close any. -/
abbrev inUse (endpoints : Endpoints) : Setting World PoolOp PoolOp.Result :=
  ⟨PoolOp.Step, fun w w' => Others w w' ∧ Busy endpoints w', fun _ op => ∀ e, op ≠ .close e⟩

/-- The operations that only look. -/
inductive PoolOp.Reads : PoolOp → Prop
  | iter (endpoints : Endpoints) : Reads (.iter endpoints)
  | expired (e : Nat) : Reads (.expired e)
  | idleSince (e : Nat) : Reads (.idleSince e)

theorem PoolOp.Reads.step_eq {op : PoolOp} (h : op.Reads) {r : op.Result} (hstep : op.Step w r w') :
    w' = w := by
  cases h with
  | iter | expired | idleSince =>
    cases hstep
    rfl

namespace Busy

theorem expired (h : Busy endpoints w) {source : SocketAddr} {endpoint : Endpoint}
    (hl : endpoints.lookup source = some endpoint) : w.expired endpoint.id = false := by
  obtain ⟨st, hst, hopen, hroutes⟩ := h source endpoint hl
  rw [World.expired, hst]
  simp [hopen, hroutes]

theorem idleSince (h : Busy endpoints w) {source : SocketAddr} {endpoint : Endpoint}
    (hl : endpoints.lookup source = some endpoint) : w.idleSince endpoint.id = none := by
  obtain ⟨st, hst, -, hroutes⟩ := h source endpoint hl
  rw [World.idleSince, hst]
  simp [hroutes]

theorem reach (h : Busy endpoints w)
    (hw : ReflTransGen (fun w w' => Others w w' ∧ Busy endpoints w') w w') : Busy endpoints w' := by
  cases hw with
  | refl => exact h
  | tail _ hstep => exact hstep.2

variable {α : Type} {Q : α → World → Prop}

theorem safe_pure {a : α} (h : Busy endpoints w) (hQ : ∀ w', Busy endpoints w' → Q a w') :
    Safe (inUse endpoints) (pure a : Method α) Q w :=
  fun w' hw => hQ w' (h.reach hw)

theorem safe_read {op : PoolOp} {f : op.Result → Method α} (h : Busy endpoints w)
    (hop : op.Reads) (hf : ∀ r w', Busy endpoints w' → op.Step w' r w' →
      Safe (inUse endpoints) (f r) Q w') :
    Safe (inUse endpoints) (Prog.perform op >>= f) Q w := by
  intro w₁ hw
  refine ⟨fun e heq => ?_, fun r w₂ hstep => ?_⟩
  · rw [heq] at hop
    cases hop
  · obtain rfl := hop.step_eq hstep
    exact hf r w₂ (h.reach hw) hstep

/-- No endpoint has expired. -/
theorem retainLoop {l : List (SocketAddr × Endpoint)} (h : Busy endpoints w)
    (hl : ∀ x ∈ l, endpoints.lookup x.1 = some x.2) :
    Safe (inUse endpoints) (UdpBypass.retainLoop (fun _ _ => true) l endpoints)
      (fun out w' => out = endpoints ∧ Busy endpoints w') w := by
  induction l generalizing w with
  | nil => exact h.safe_pure fun w' h' => ⟨rfl, h'⟩
  | cons x rest ih =>
    refine h.safe_read (.expired x.2.id) fun expired w' h' hstep => ?_
    cases hstep
    rw [h'.expired (hl x List.mem_cons_self)]
    exact ih h' fun y hy => hl y (List.mem_cons_of_mem _ hy)

theorem retain (h : Busy endpoints w) :
    Safe (inUse endpoints) (UdpBypass.retain (fun _ _ => true) endpoints)
      (fun out w' => out = endpoints ∧ Busy endpoints w') w := by
  refine h.safe_read (.iter endpoints) fun l w' h' hstep => ?_
  cases hstep with
  | iter hperm => exact h'.retainLoop fun x hx => (mem_iter hperm).mp hx

/-- No endpoint can go. -/
theorem oldestIdle {l : List (SocketAddr × Endpoint)} (h : Busy endpoints w)
    (hl : ∀ x ∈ l, endpoints.lookup x.1 = some x.2) :
    Safe (inUse endpoints) (UdpBypass.oldestIdle l none)
      (fun out w' => out = none ∧ Busy endpoints w') w := by
  induction l generalizing w with
  | nil => exact h.safe_pure fun w' h' => ⟨rfl, h'⟩
  | cons x rest ih =>
    refine h.safe_read (.idleSince x.2.id) fun idle w' h' hstep => ?_
    cases hstep
    rw [h'.idleSince (hl x List.mem_cons_self)]
    exact ih h' fun y hy => hl y (List.mem_cons_of_mem _ hy)

theorem makeRoom {limit : Nat} (h : Busy endpoints w) (hfull : limit ≤ endpoints.entries.length) :
    Safe (inUse endpoints) (UdpBypass.makeRoom limit endpoints)
      (fun out w' => out = none ∧ Busy endpoints w') w := by
  unfold UdpBypass.makeRoom
  rw [if_pos hfull]
  refine h.safe_read (.iter endpoints) fun l w' h' hstep => ?_
  cases hstep with
  | iter hperm =>
  refine (h'.oldestIdle fun x hx => (mem_iter hperm).mp hx).seq fun found w₁ h₁ => ?_
  obtain ⟨rfl, h₁⟩ := h₁
  exact h₁.safe_pure fun w₂ h₂ => ⟨rfl, h₂⟩

end Busy

/-- The peer can be reached from the source. -/
structure FlowRequest.Valid (request : FlowRequest) : Prop where
  family : request.source.ip.isIpv4 = request.peer.ip.isIpv4
  multicast : isMulticast request.peer.ip = false
  unspecified : isUnspecified request.peer.ip = false

theorem Busy.openWith {pool : Pool} {request : FlowRequest} (h : Busy pool.endpoints w)
    (hvalid : request.Valid) (hnone : pool.endpoints.lookup request.source = none)
    (hfull : pool.limit ≤ pool.endpoints.entries.length) :
    Safe (inUse pool.endpoints) (openWith request pool)
      (fun out _ => out = (.ok none, pool)) w := by
  have hcheck : ¬ (request.source.ip.isIpv4 ≠ request.peer.ip.isIpv4 ∨
      isMulticast request.peer.ip = true ∨ isUnspecified request.peer.ip = true) := by
    rw [hvalid.multicast, hvalid.unspecified]
    simp [hvalid.family]
  unfold UdpBypass.openWith
  rw [if_neg hcheck]
  refine h.retain.seq fun kept w₁ h₁ => ?_
  obtain ⟨rfl, h₁⟩ := h₁
  have hstale : retireStale request pool.endpoints = pure pool.endpoints := by
    rw [retireStale, hnone]
  have hfind : Safe (inUse pool.endpoints) (endpointFor request pool.limit pool.endpoints)
      (fun out w' => out = (.ok none, pool.endpoints) ∧ Busy pool.endpoints w') w₁ := by
    rw [endpointFor, hnone]
    refine (h₁.makeRoom hfull).seq fun room w₂ h₂ => ?_
    obtain ⟨rfl, h₂⟩ := h₂
    exact h₂.safe_pure fun w₃ h₃ => ⟨rfl, h₃⟩
  rw [hstale]
  refine hfind.seq fun out w₂ h₂ => ?_
  obtain ⟨rfl, h₂⟩ := h₂
  exact h₂.safe_pure fun _ _ => rfl

/-! ## 6. Every run -/

/-- What `safe_extends` is for `Extends`. -/
theorem safe_sound {α : Type} {p : Method α} {Q : α → World → Prop} (hs : Sound w)
    (h : Safe env p Q w) : Safe env p (fun a w' => Sound w' ∧ Q a w') w := by
  induction p generalizing w with
  | pure a =>
    intro w' hw
    exact ⟨(Settles.reach hs hw).sound, h w' hw⟩
  | call op k ih =>
    intro w₁ hw
    obtain ⟨hok, hk⟩ := h w₁ hw
    exact ⟨hok, fun r w₂ hstep => ih r ((Settles.reach hs hw).sound.step hstep) (hk r w₂ hstep)⟩

/-- **The capacity of the pool.** Whenever the lock of the pool is free, in any run of its methods,
    flows and receiver tasks:
    the pool holds at most as many endpoints as its limit, which is the one it was made with, and
    1024 at most;
    whatever flows and receiver tasks do meanwhile, `open_with` closes an endpoint with routes only
    if its token is cancelled, or if it is that of the source and of another owner or on another
    interface;
    what it closes after that, to make room, has no routes, and none of the endpoints left that had
    no routes then was last active before it;
    and if it is called for a source without an endpoint when the pool is full, then it returns
    `Ok(None)` and closes nothing, as long as every endpoint is open and has routes. -/
theorem bypass_pool_capacity (limit : Nat) {phase : Phase}
    (hrun : ReflTransGen Move (pure (Phase.new limit), World.start) (pure phase, w)) :
    (phase.pool.limit = min limit 1024 ∧
      phase.pool.endpoints.entries.length ≤ phase.pool.limit) ∧
    (∀ request, Safe ⟨PoolOp.Step, Others, Closing request⟩ (openWith request phase.pool)
      (fun _ _ => True) w) ∧
    (∀ request, Safe env
      (retain (fun _ _ => true) phase.pool.endpoints >>= retireStale request)
      (fun left w₁ => Safe
        ⟨PoolOp.Step, Others, fun w₂ op => ∀ e, op = .close e → Evicts left w₁ w₂ e⟩
        (endpointFor request phase.pool.limit left) (fun _ _ => True) w₁) w) ∧
    (∀ request : FlowRequest, request.Valid → phase.pool.endpoints.lookup request.source = none →
      phase.pool.limit ≤ phase.pool.endpoints.entries.length → Busy phase.pool.endpoints w →
      Safe ⟨PoolOp.Step, fun w₁ w₂ => Others w₁ w₂ ∧ Busy phase.pool.endpoints w₂,
          fun _ op => ∀ e, op ≠ .close e⟩
        (openWith request phase.pool) (fun out _ => out = (.ok none, phase.pool)) w ∧
      ∃ w', Prog.Runs PoolOp.Step (openWith request phase.pool) w (.ok none, phase.pool) w') := by
  obtain ⟨hlimit, hlength⟩ := run_within hrun
  have hs := (run_sound hrun).1
  have hfiled := (run_safe hrun).result.filed
  refine ⟨⟨hlimit, hlimit ▸ hlength⟩, fun request => openWith_closing hs hfiled, ?_, ?_⟩
  · intro request
    have hfirst : Safe env (retain (fun _ _ => true) phase.pool.endpoints >>= retireStale request)
        (fun _ _ => True) w :=
      (hfiled.retain _).seq fun _ _ h₁ => (h₁.retireStale request).mono fun _ _ _ => trivial
    refine (safe_sound hs hfirst).mono fun left w₁ h₁ => ?_
    refine (endpointFor_safe request phase.pool.limit h₁.1 ?_ ?_).mono fun _ _ _ => trivial
    · exact fun w₂ op hop e heq => absurd heq (hop e)
    · rintro w₂ e hevicts e' heq
      cases heq
      exact hevicts
  · intro request hvalid hnone hfull hbusy
    have hsafe := hbusy.openWith hvalid hnone hfull
    refine ⟨hsafe, ?_⟩
    have hruns := Prog.Runs.exec PoolOp.answer_step (openWith request phase.pool) w
    rw [hsafe.runs hruns] at hruns
    exact ⟨_, hruns⟩

section Sample

/-- The one endpoint of a pool that may have one has the flow of the first process. -/
def sampleFull : Phase × World := sampleOpened 1 (.new 1, .start)

theorem sampleFull_moves :
    ReflTransGen Move (pure (Phase.new 1), World.start) (pure sampleFull.1, sampleFull.2) :=
  sampleOpened_moves 1 (.new 1, .start)

theorem sampleFull_busy : Busy sampleFull.1.pool.endpoints sampleFull.2 := by
  intro source endpoint hl
  have hmem := AList.mem_lookup_iff.mp hl
  have hentries : sampleFull.1.pool.endpoints.entries =
      [⟨(sampleRequest 1).source, ⟨0, ⟨1, 0⟩, ⟨7, 7⟩⟩⟩] := by decide +kernel
  rw [hentries] at hmem
  cases List.mem_singleton.mp hmem
  exact ⟨_, rfl, rfl, by decide +kernel⟩

/-- Another application socket. -/
def sampleOther : FlowRequest := { sampleRequest 1 with source := .v4 0x0A000002#32 6000 }

/-- A second application socket gets no endpoint. -/
theorem sample_bypass_pool_capacity :
    sampleFull.1.pool.endpoints.entries.length = 1 ∧ Busy sampleFull.1.pool.endpoints sampleFull.2 ∧
    ∃ w', Prog.Runs PoolOp.Step (openWith sampleOther sampleFull.1.pool) sampleFull.2
      (.ok none, sampleFull.1.pool) w' := by
  refine ⟨by decide +kernel, sampleFull_busy, ?_⟩
  refine ((bypass_pool_capacity 1 sampleFull_moves).2.2.2 sampleOther ?_ ?_ ?_ sampleFull_busy).2
  · exact ⟨by decide +kernel, by decide +kernel, by decide +kernel⟩
  · decide +kernel
  · decide +kernel

/-- The second process asks for the application socket of the first, whose endpoint is in use. It
    is closed, and makes room for another. -/
theorem stale_endpoint_makes_room :
    ReflTransGen Move (pure (Phase.new 1), World.start) (pure sampleFull.1, sampleFull.2) ∧
    sampleFull.1.pool.limit = 1 ∧ sampleFull.1.pool.endpoints.entries.length = 1 ∧
    Busy sampleFull.1.pool.endpoints sampleFull.2 ∧
    (∀ endpoint, sampleFull.1.pool.endpoints.lookup (sampleRequest 2).source = some endpoint →
      ¬ Serves endpoint (sampleRequest 2)) ∧
    ∃ pool w', Prog.Runs PoolOp.Step (openWith (sampleRequest 2) sampleFull.1.pool) sampleFull.2
      (.ok (some 1), pool) w' ∧ ¬ sampleFull.2.Cancelled 0 ∧ w'.Cancelled 0 := by
  refine ⟨sampleFull_moves, by decide +kernel, by decide +kernel, sampleFull_busy, ?_, ?_⟩
  · intro endpoint hl hserves
    have hfound : sampleFull.1.pool.endpoints.lookup (sampleRequest 2).source =
        some ⟨0, ⟨1, 0⟩, ⟨7, 7⟩⟩ := by decide +kernel
    cases hfound.symm.trans hl
    exact absurd hserves.owner (by decide)
  · have hruns := Prog.Runs.exec PoolOp.answer_step (openWith (sampleRequest 2) sampleFull.1.pool)
      sampleFull.2
    refine ⟨_, _, hruns, ?_, ⟨_, rfl, rfl⟩⟩
    rintro ⟨st, hst, hclosed⟩
    obtain ⟨st', hst', hopen⟩ : ∃ st, sampleFull.2.endpoints[0]? = some st ∧ st.closed = false :=
      ⟨_, rfl, rfl⟩
    obtain rfl := Option.some.inj (hst.symm.trans hst')
    exact Bool.false_ne_true (hopen.symm.trans hclosed)

end Sample

end Tun2Proxy.UdpBypass
