/-
  File:      Tun2Proxy/UdpBypass/Isolation.lean
  Subject:   Bypass flows never cross owners.

  Two facts carry the result. `Sound` is the invariant of a world: an endpoint routes a peer to the
  living flow registered for it, a retired endpoint routes nothing, and what a flow holds was
  received for it. `Grows` is what every step does to what is already there: endpoints and flows
  keep what they were made for, a retired endpoint stays retired, and what is new is not on one.

  That a flow is registered only on an endpoint of its source, its owner and its interface is a
  property of the methods: the call of `register` is the one they have to justify (`Allowed`).
-/
import Mathlib.Data.List.AList
import Tun2Proxy.Lib.Maps
import Tun2Proxy.UdpBypass.Pool

open Relation

namespace Tun2Proxy.UdpBypass

open Prog (Safe Triple Setting)

variable {w w' w'' : World} {e : Nat}

/-! ## 1. Reading a world that has changed -/

attribute [grind =] World.modifyEndpoint World.modifyFlow World.close World.create

namespace World

/-- The flow to which an endpoint routes what it receives from the peer. -/
def route (w : World) (e : Nat) (peer : SocketAddr) : Option Nat :=
  w.endpoints[e]?.bind fun st => st.routes.lookup peer

/-- `close` of the endpoint has returned. -/
def Retired (w : World) (e : Nat) : Prop := ∃ st, w.endpoints[e]? = some st ∧ st.retired = true

end World

/-! ## 2. What every step keeps -/

/-- What stays of an endpoint. -/
structure Continues (st st' : EndpointState) : Prop where
  endpoint : st'.endpoint = st.endpoint
  source : st'.source = st.source
  retired : st.retired = true → st'.retired = true

/-- What stays of a flow. -/
def SameFlow (flow flow' : Flow) : Prop :=
  flow'.endpoint = flow.endpoint ∧ flow'.request = flow.request

/-- **Nothing is forgotten**: endpoints and flows are what they were made for. -/
structure Extends (w w' : World) : Prop where
  endpoints : ∀ (e : Nat) st, w.endpoints[e]? = some st →
    ∃ st', w'.endpoints[e]? = some st' ∧ Continues st st'
  flows : ∀ (i : Nat) flow, w.flows[i]? = some flow →
    ∃ flow', w'.flows[i]? = some flow' ∧ SameFlow flow flow'

namespace Extends

theorem refl (w : World) : Extends w w :=
  ⟨fun _ st hst => ⟨st, hst, rfl, rfl, id⟩, fun _ flow hflow => ⟨flow, hflow, rfl, rfl⟩⟩

theorem trans (h : Extends w w') (h' : Extends w' w'') : Extends w w'' := by
  constructor
  · intro e st hst
    obtain ⟨st', hst', hc⟩ := h.endpoints e st hst
    obtain ⟨st'', hst'', hc'⟩ := h'.endpoints e st' hst'
    exact ⟨st'', hst'', hc'.endpoint.trans hc.endpoint, hc'.source.trans hc.source,
      fun hr => hc'.retired (hc.retired hr)⟩
  · intro i flow hflow
    obtain ⟨flow', hflow', hs⟩ := h.flows i flow hflow
    obtain ⟨flow'', hflow'', hs'⟩ := h'.flows i flow' hflow'
    exact ⟨flow'', hflow'', hs'.1.trans hs.1, hs'.2.trans hs.2⟩

theorem retired (h : Extends w w') (hr : w.Retired e) : w'.Retired e := by
  obtain ⟨st, hst, hret⟩ := hr
  obtain ⟨st', hst', hc⟩ := h.endpoints e st hst
  exact ⟨st', hst', hc.retired hret⟩

/-- A flow that was there is what it was. -/
theorem flow_back (h : Extends w w') {i : Nat} {flow' : Flow} (hflow' : w'.flows[i]? = some flow')
    (hi : i < w.flows.length) : ∃ flow, w.flows[i]? = some flow ∧ SameFlow flow flow' := by
  have hflow := List.getElem?_eq_getElem hi
  obtain ⟨flow'', hflow'', hs⟩ := h.flows i _ hflow
  obtain rfl := Option.some.inj (hflow'.symm.trans hflow'')
  exact ⟨_, hflow, hs⟩

theorem others (h : Others w w') : Extends w w' := by
  cases h with
  | tick d => exact ⟨(refl w).endpoints, (refl w).flows⟩
  | dropFlow hflow halive =>
    rw [World.dropFlow, hflow]
    constructor <;> grind [Continues, SameFlow]
  | send | take | inject | recvFrom | route | lose | leave | exit | abort =>
    constructor <;> grind [Continues, SameFlow]

theorem register (w : World) (endpoint : Endpoint) (request : FlowRequest) :
    Extends w (w.register endpoint request).2 := by
  unfold World.register
  constructor <;> grind [Continues, SameFlow]

theorem step {op : PoolOp} {r : op.Result} (h : op.Step w r w') : Extends w w' := by
  cases h with
  | now | iter | expired | idleSince | bindFails => exact refl w
  | close | bind => constructor <;> grind [Continues, SameFlow]
  | register endpoint request => exact register w endpoint request

theorem reach (h : ReflTransGen Others w w') : Extends w w' := by
  induction h with
  | refl => exact refl w
  | tail _ hstep ih => exact ih.trans (others hstep)

end Extends

/-! ## 3. The invariant of a world -/

/-- What a flow holds of what was received. -/
def Flow.held (flow : Flow) : List Datagram := flow.queue ++ flow.inHand.toList

/-- The datagram was received on the socket of the flow, from its peer. -/
structure Flow.Own (flow : Flow) (received : List Datagram) (datagram : Datagram) : Prop where
  socket : datagram.socket = flow.endpoint.id
  peer : datagram.peer = flow.request.peer
  received : datagram ∈ received

theorem Flow.Own.same {flow flow' : Flow} {received received' : List Datagram}
    {datagram : Datagram} (h : flow.Own received datagram) (hs : SameFlow flow flow')
    (hr : received ⊆ received') : flow'.Own received' datagram :=
  ⟨h.socket.trans (congrArg Endpoint.id hs.1.symm),
    h.peer.trans (congrArg FlowRequest.peer hs.2.symm), hr h.received⟩

/-- **The invariant of a world.** -/
structure Sound (w : World) : Prop where
  /-- A retired endpoint is closed and has no routes. -/
  retired : ∀ (e : Nat) st, w.endpoints[e]? = some st → st.retired = true →
    st.closed = true ∧ st.routes = ∅
  /-- A route leads to a living flow of the endpoint and the peer. -/
  routed : ∀ (e : Nat) st peer i, w.endpoints[e]? = some st → st.routes.lookup peer = some i →
    ∃ flow, w.flows[i]? = some flow ∧ flow.alive = true ∧ flow.endpoint.id = e ∧
      flow.request.peer = peer
  /-- A living flow has its route, until the endpoint is retired. -/
  registered : ∀ (i : Nat) flow, w.flows[i]? = some flow →
    ∃ st, w.endpoints[flow.endpoint.id]? = some st ∧
      (flow.alive = true → st.retired = false → st.routes.lookup flow.request.peer = some i)
  received : ∀ (e : Nat) st peer bytes, w.endpoints[e]? = some st →
    st.receiver = .received peer bytes → ⟨e, peer, bytes⟩ ∈ w.received
  held : ∀ (i : Nat) flow, w.flows[i]? = some flow → ∀ d ∈ flow.held, flow.Own w.received d
  injected : ∀ x ∈ w.injected, ∃ flow, w.flows[x.flow]? = some flow ∧
    flow.Own w.received x.datagram

/-- An endpoint whose token is not cancelled is not retired. -/
theorem Sound.open_not_retired (h : Sound w) {st : EndpointState} (hst : w.endpoints[e]? = some st)
    (hopen : st.closed = false) : ¬ w.Retired e := by
  rintro ⟨st', hst', hret⟩
  obtain rfl := Option.some.inj (hst.symm.trans hst')
  exact Bool.false_ne_true (hopen.symm.trans (h.retired e st hst hret).1)

namespace Sound

theorem start : Sound .start := by
  constructor <;> simp [World.start]

/-- What may change of an endpoint while its routes stay. -/
structure Touched (received : List Datagram) (e : Nat) (st st' : EndpointState) : Prop where
  routes : st'.routes = st.routes
  retired : st'.retired = st.retired
  closed : st.closed = true → st'.closed = true
  receiver : ∀ peer bytes, st'.receiver = .received peer bytes → ⟨e, peer, bytes⟩ ∈ received

theorem modifyEndpoint (h : Sound w) {f : EndpointState → EndpointState}
    (hf : ∀ st, w.endpoints[e]? = some st → Touched w.received e st (f st)) :
    Sound (w.modifyEndpoint e f) := by
  constructor
  case retired => grind [h.retired, Touched]
  case routed => grind [h.routed, Touched]
  case registered => grind [h.registered, Touched]
  case received => grind [h.received, Touched]
  case held => exact h.held
  case injected => exact h.injected

/-- The queue and the hand of a flow. -/
theorem modifyFlow (h : Sound w) {i : Nat} {f : Flow → Flow}
    (hf : ∀ flow, w.flows[i]? = some flow → SameFlow flow (f flow) ∧ (f flow).alive = flow.alive ∧
      ∀ d ∈ (f flow).held, flow.Own w.received d) : Sound (w.modifyFlow i f) := by
  constructor
  case retired => exact h.retired
  case routed => grind [h.routed, SameFlow]
  case registered => grind [h.registered, SameFlow]
  case received => exact h.received
  case held => grind [h.held, Flow.Own.same]
  case injected => grind [h.injected, Flow.Own.same]

/-- The clock, and what is sent, are not part of the invariant; more may be received. -/
theorem logs (h : Sound w) {now : Nat} {received : List Datagram} {sent : List Passed}
    (hr : w.received ⊆ received) :
    Sound ⟨w.endpoints, w.flows, now, received, sent, w.injected⟩ := by
  refine ⟨h.retired, h.routed, h.registered, ?_, ?_, ?_⟩
  · exact fun e st peer bytes hst hreceived => hr (h.received e st peer bytes hst hreceived)
  · exact fun i flow hflow d hd => (h.held i flow hflow d hd).same ⟨rfl, rfl⟩ hr
  · intro x hx
    obtain ⟨flow, hflow, hown⟩ := h.injected x hx
    exact ⟨flow, hflow, hown.same ⟨rfl, rfl⟩ hr⟩

theorem inject (h : Sound w) {i : Nat} {flow : Flow} {datagram : Datagram}
    (hflow : w.flows[i]? = some flow) (hown : flow.Own w.received datagram) :
    Sound { w with injected := w.injected ++ [⟨i, datagram⟩] } := by
  refine ⟨h.retired, h.routed, h.registered, h.received, h.held, ?_⟩
  grind [h.injected]

theorem close (h : Sound w) (e : Nat) : Sound (w.close e) := by
  constructor
  case retired => grind [h.retired]
  case routed => grind [h.routed]
  case registered => grind [h.registered]
  case received => grind [h.received]
  case held => exact h.held
  case injected => exact h.injected

theorem create (h : Sound w) (source : SocketAddr) (owner : SocketOwner)
    (interface : BindInterface) : Sound (w.create source owner interface).2 := by
  constructor
  case retired => grind [h.retired]
  case routed => grind [h.routed]
  case registered => grind [h.registered]
  case received => grind [h.received]
  case held => exact h.held
  case injected => exact h.injected

theorem addFlow (h : Sound w) {st : EndpointState} {endpoint : Endpoint} {request : FlowRequest}
    (hst : w.endpoints[endpoint.id]? = some st) (hopen : st.closed = false)
    (hfree : st.routes.lookup request.peer = none) {now : Nat} :
    Sound { (w.modifyEndpoint endpoint.id fun st => { st with
        routes := st.routes.insert request.peer w.flows.length, lastActivity := now }) with
      flows := w.flows ++ [⟨endpoint, request, [], none, true⟩] } := by
  constructor
  case retired => grind [h.retired]
  case routed =>
    intro x st' peer i hst' hroute
    -- the new route leads to the new flow
    by_cases hnew : endpoint.id = x ∧ peer = request.peer
    · obtain rfl : i = w.flows.length := by grind
      exact ⟨_, List.getElem?_concat_length, rfl, hnew.1, hnew.2.symm⟩
    · grind [h.routed]
  case registered => grind [h.registered]
  case received => grind [h.received]
  case held => grind [h.held, Flow.held]
  case injected => grind [h.injected]

theorem register (h : Sound w) (endpoint : Endpoint) (request : FlowRequest) :
    Sound (w.register endpoint request).2 := by
  unfold World.register
  split
  case h_1 => exact h
  case h_2 st hst =>
    split_ifs with hclosed hroute
    · exact h
    · exact h
    · exact h.addFlow hst (eq_false_of_ne_true hclosed) (Option.not_isSome_iff_eq_none.mp hroute)

/-- Two living flows of one endpoint have two peers. -/
theorem flow_unique (h : Sound w) {i j : Nat} {flow other : Flow} {st : EndpointState}
    (hflow : w.flows[i]? = some flow) (halive : flow.alive = true)
    (hother : w.flows[j]? = some other) (halive' : other.alive = true)
    (hsame : flow.endpoint.id = other.endpoint.id)
    (hpeer : flow.request.peer = other.request.peer)
    (hst : w.endpoints[other.endpoint.id]? = some st) (hret : st.retired = false) : i = j := by
  obtain ⟨st₁, hst₁, hlookup₁⟩ := h.registered i flow hflow
  obtain ⟨st₂, hst₂, hlookup₂⟩ := h.registered j other hother
  rw [hsame, hst] at hst₁
  rw [hst] at hst₂
  obtain rfl := Option.some.inj hst₁
  obtain rfl := Option.some.inj hst₂
  have hroute := hlookup₁ halive hret
  rw [hpeer, hlookup₂ halive' hret] at hroute
  exact (Option.some.inj hroute).symm

theorem dropFlow (h : Sound w) {i : Nat} {flow : Flow} (hflow : w.flows[i]? = some flow)
    (halive : flow.alive = true) : Sound (w.dropFlow i) := by
  rw [World.dropFlow, hflow]
  dsimp only
  have herase : (∅ : AList fun _ : SocketAddr => Nat).erase flow.request.peer = ∅ := rfl
  constructor
  case retired => grind [h.retired]
  -- the route of the flow itself is gone
  case routed => grind [h.routed]
  -- another living flow of the endpoint has another peer, so it keeps its route
  case registered => grind [h.registered, h.flow_unique]
  case received => grind [h.received]
  case held => grind [h.held, Flow.held]
  case injected => grind [h.injected, Flow.Own.same, SameFlow]

theorem others (h : Sound w) (hstep : Others w w') : Sound w' := by
  cases hstep with
  | tick d => exact h.logs (List.Subset.refl _)
  | dropFlow hflow halive => exact h.dropFlow hflow halive
  | send payload hflow halive hst hopen =>
    refine logs (modifyEndpoint h ?_) (List.Subset.refl _)
    exact fun st hst => ⟨rfl, rfl, id, fun peer bytes => h.received _ st peer bytes hst⟩
  | take hflow halive hqueue hfree =>
    exact modifyFlow h fun flow' hflow' => ⟨⟨rfl, rfl⟩, rfl, by grind [h.held, Flow.held]⟩
  | @inject i flow datagram st hflow halive hhand hst hopen =>
    have hown : flow.Own w.received datagram :=
      h.held i flow hflow datagram (by simp [Flow.held, hhand])
    exact modifyFlow (w := { w with injected := w.injected ++ [⟨i, datagram⟩] })
      (h.inject hflow hown) fun flow' hflow' => ⟨⟨rfl, rfl⟩, rfl, by grind [h.held, Flow.held]⟩
  | @recvFrom e st peer bytes hst hwaiting =>
    exact modifyEndpoint (w := { w with received := w.received ++ [⟨e, peer, bytes⟩] })
      (h.logs (List.subset_append_left _ _)) fun st hst => ⟨rfl, rfl, id, by simp⟩
  | @route e i st flow peer bytes hst hreceived hroute hflow hroom =>
    -- the route leads to the flow of the endpoint and the peer
    have hown : flow.Own w.received ⟨e, peer, bytes⟩ := by
      obtain ⟨flow', hflow', -, he, hpeer⟩ := h.routed e st peer i hst hroute
      obtain rfl := Option.some.inj (hflow.symm.trans hflow')
      exact ⟨he.symm, hpeer.symm, h.received e st peer bytes hst hreceived⟩
    refine modifyFlow (modifyEndpoint h ?_) fun flow' hflow' => ⟨⟨rfl, rfl⟩, rfl, ?_⟩
    · exact fun st hst => ⟨rfl, rfl, id, nofun⟩
    · grind [h.held, Flow.held]
  | lose | leave => exact modifyEndpoint h fun st hst => ⟨rfl, rfl, id, nofun⟩
  | exit hst hleaving => exact modifyEndpoint (h.close _) fun st hst => ⟨rfl, rfl, id, nofun⟩
  | abort e => exact modifyEndpoint h fun st hst => ⟨rfl, rfl, fun _ => rfl, nofun⟩

theorem step (h : Sound w) {op : PoolOp} {r : op.Result} (hstep : op.Step w r w') : Sound w' := by
  cases hstep with
  | now | iter | expired | idleSince | bindFails => exact h
  | close e => exact h.close e
  | bind source owner interface => exact h.create source owner interface
  | register endpoint request => exact h.register endpoint request

end Sound

/-! ## 4. What is new is not on a retired endpoint -/

/-- The flow through which the datagram has passed is on an endpoint that was not retired. -/
def Passed.OnOpen (w w' : World) (x : Passed) : Prop :=
  ∃ flow, w'.flows[x.flow]? = some flow ∧ ¬ w.Retired flow.endpoint.id

/-- **What every step does to what is there.** -/
structure Grows (w w' : World) : Prop extends Extends w w' where
  fresh : ∀ (i : Nat) flow, w'.flows[i]? = some flow → w.flows.length ≤ i →
    ¬ w.Retired flow.endpoint.id
  sent : ∃ l, w'.sent = w.sent ++ l ∧ ∀ x ∈ l, x.OnOpen w w'
  injected : ∃ l, w'.injected = w.injected ++ l ∧ ∀ x ∈ l, x.OnOpen w w'

namespace Grows

/-- Flows and logs stay. -/
theorem of_extends (h : Extends w w') (hlen : w'.flows.length = w.flows.length)
    (hsent : w'.sent = w.sent) (hinjected : w'.injected = w.injected) : Grows w w' := by
  refine ⟨h, fun i flow hflow hi => ?_, ⟨[], by simp [hsent]⟩, ⟨[], by simp [hinjected]⟩⟩
  have hlt := (List.getElem?_eq_some_iff.mp hflow).1
  omega

theorem refl (w : World) : Grows w w := of_extends (.refl w) rfl rfl rfl

/-- What has passed later, too, was on an endpoint that was not retired. -/
theorem log_trans (h : Extends w w') (h' : Extends w' w'') {log log' log'' : List Passed}
    (hl : ∃ l, log' = log ++ l ∧ ∀ x ∈ l, x.OnOpen w w')
    (hl' : ∃ l, log'' = log' ++ l ∧ ∀ x ∈ l, x.OnOpen w' w'') :
    ∃ l, log'' = log ++ l ∧ ∀ x ∈ l, x.OnOpen w w'' := by
  obtain ⟨l, rfl, hopen⟩ := hl
  obtain ⟨l', rfl, hopen'⟩ := hl'
  refine ⟨l ++ l', List.append_assoc _ _ _, fun x hx => ?_⟩
  rcases List.mem_append.mp hx with hx | hx
  · obtain ⟨flow, hflow, hret⟩ := hopen x hx
    obtain ⟨flow', hflow', hsame⟩ := h'.flows _ flow hflow
    refine ⟨flow', hflow', ?_⟩
    rwa [hsame.1]
  · obtain ⟨flow, hflow, hret⟩ := hopen' x hx
    exact ⟨flow, hflow, fun hr => hret (h.retired hr)⟩

theorem trans (h : Grows w w') (h' : Grows w' w'') : Grows w w'' := by
  refine ⟨h.toExtends.trans h'.toExtends, fun i flow hflow hi => ?_,
    log_trans h.toExtends h'.toExtends h.sent h'.sent,
    log_trans h.toExtends h'.toExtends h.injected h'.injected⟩
  by_cases hlt : i < w'.flows.length
  · obtain ⟨flow', hflow', hsame⟩ := h'.flow_back hflow hlt
    rw [hsame.1]
    exact h.fresh i flow' hflow' hi
  · exact fun hr => h'.fresh i flow hflow (not_lt.mp hlt) (h.toExtends.retired hr)

end Grows

theorem Others.flows_length (h : Others w w') : w'.flows.length = w.flows.length := by
  cases h with
  | dropFlow hflow halive =>
    rw [World.dropFlow, hflow]
    exact List.length_modify _ _ _
  | take | inject | route => exact List.length_modify _ _ _
  | tick | send | recvFrom | lose | leave | exit | abort => rfl

theorem Others.grows (h : Sound w) (hstep : Others w w') : Grows w w' := by
  have hext := Extends.others hstep
  have hlen := hstep.flows_length
  cases hstep with
  | dropFlow hflow halive =>
    refine .of_extends hext hlen ?_ ?_ <;> rw [World.dropFlow, hflow] <;> rfl
  | @send i flow st payload hflow halive hst hopen =>
    refine ⟨hext, (Grows.refl w).fresh, ⟨_, rfl, fun x hx => ?_⟩, (Grows.refl w).injected⟩
    obtain rfl := List.mem_singleton.mp hx
    exact ⟨flow, hflow, h.open_not_retired hst hopen⟩
  | @inject i flow datagram st hflow halive hhand hst hopen =>
    have hquiet : Grows w (w.modifyFlow i fun flow => { flow with inHand := none }) :=
      .of_extends ⟨hext.endpoints, hext.flows⟩ hlen rfl rfl
    refine ⟨hext, hquiet.fresh, hquiet.sent, ⟨_, rfl, fun x hx => ?_⟩⟩
    obtain rfl := List.mem_singleton.mp hx
    refine ⟨{ flow with inHand := none }, by grind, h.open_not_retired hst hopen⟩
  | tick | take | recvFrom | route | lose | leave | exit | abort =>
    exact .of_extends hext hlen rfl rfl

/-- What `register` does. -/
theorem register_cases (w : World) (endpoint : Endpoint) (request : FlowRequest) :
    ((w.register endpoint request).2 = w ∧ ∀ i, (w.register endpoint request).1 ≠ .ok (some i)) ∨
    ∃ st, w.endpoints[endpoint.id]? = some st ∧ st.closed = false ∧
      (w.register endpoint request).1 = .ok (some w.flows.length) ∧
      (w.register endpoint request).2.flows =
        w.flows ++ [⟨endpoint, request, [], none, true⟩] ∧
      (w.register endpoint request).2.sent = w.sent ∧
      (w.register endpoint request).2.injected = w.injected := by
  unfold World.register
  split
  case h_1 => exact .inl ⟨rfl, nofun⟩
  case h_2 st hst =>
    split_ifs with hclosed
    · exact .inl ⟨rfl, nofun⟩
    · exact .inl ⟨rfl, nofun⟩
    · exact .inr ⟨st, hst, eq_false_of_ne_true hclosed, rfl, rfl, rfl, rfl⟩

theorem register_grows (h : Sound w) (endpoint : Endpoint) (request : FlowRequest) :
    Grows w (w.register endpoint request).2 := by
  have hext := Extends.register w endpoint request
  obtain ⟨heq, -⟩ | ⟨st, hst, hopen, -, hflows, hsent, hinjected⟩ :=
    register_cases w endpoint request
  · rw [heq]
    exact .refl w
  · refine ⟨hext, fun i flow hflow hi => ?_, ⟨[], by simp [hsent]⟩, ⟨[], by simp [hinjected]⟩⟩
    have hflow : flow.endpoint = endpoint := by grind
    rw [hflow]
    exact h.open_not_retired hst hopen

theorem PoolOp.Step.grows (h : Sound w) {op : PoolOp} {r : op.Result} (hstep : op.Step w r w') :
    Grows w w' := by
  have hext := Extends.step hstep
  cases hstep with
  | now | iter | expired | idleSince | bindFails => exact .refl w
  | close | bind => exact .of_extends hext rfl rfl rfl
  | register endpoint request => exact register_grows h endpoint request

/-! ## 5. The methods register a flow on an endpoint of its own -/

/-- The endpoint was created for the source. -/
def CreatedFor (w : World) (endpoint : Endpoint) (source : SocketAddr) : Prop :=
  ∃ st, w.endpoints[endpoint.id]? = some st ∧ st.endpoint = endpoint ∧ st.source = source

theorem CreatedFor.mono {endpoint : Endpoint} {source : SocketAddr}
    (h : CreatedFor w endpoint source) (hw : Extends w w') : CreatedFor w' endpoint source := by
  obtain ⟨st, hst, hendpoint, hsource⟩ := h
  obtain ⟨st', hst', hc⟩ := hw.endpoints _ st hst
  exact ⟨st', hst', hc.endpoint.trans hendpoint, hc.source.trans hsource⟩

/-- The endpoint is of the owner and on the interface of the request. -/
structure Serves (endpoint : Endpoint) (request : FlowRequest) : Prop where
  owner : endpoint.owner = request.owner
  interface : endpoint.usesInterface request.source request.interface = true

/-- The calls a method may make: it registers a flow where the flow belongs. -/
def Allowed (w : World) : PoolOp → Prop
  | .register endpoint request =>
    CreatedFor w endpoint request.source ∧ Serves endpoint request
  | _ => True

abbrev env : Setting World PoolOp PoolOp.Result := ⟨PoolOp.Step, Others, Allowed⟩

section Methods

variable {α β : Type} {Q : α → World → Prop} {R : β → World → Prop}

theorem safe_pure {a : α} (h : ∀ w', Extends w w' → Q a w') :
    Safe env (pure a : Method α) Q w :=
  fun w' hw => h w' (.reach hw)

/-- A call whose result does not matter. -/
theorem safe_call {op : PoolOp} {f : op.Result → Method α} (hok : ∀ w, Allowed w op)
    (hf : ∀ r w', Extends w w' → Safe env (f r) Q w') :
    Safe env (Prog.perform op >>= f) Q w := by
  intro w₁ hw
  exact ⟨hok w₁, fun r w₂ hstep => hf r w₂ ((Extends.reach hw).trans (.step hstep))⟩

/-- What was there before stays, whatever the method does. -/
theorem safe_extends {p : Method α} (h : Safe env p Q w) :
    Safe env p (fun a w' => Extends w w' ∧ Q a w') w := by
  induction p generalizing w with
  | pure a => exact fun w' hw => ⟨.reach hw, h w' hw⟩
  | call op k ih =>
    intro w₁ hw
    obtain ⟨hok, hk⟩ := h w₁ hw
    refine ⟨hok, fun r w₂ hstep => (ih r (hk r w₂ hstep)).mono fun a w₃ h₃ => ⟨?_, h₃.2⟩⟩
    exact ((Extends.reach hw).trans (.step hstep)).trans h₃.1

end Methods

/-- Every endpoint of the pool was created for its source. -/
def Filed (endpoints : Endpoints) (w : World) : Prop :=
  ∀ source endpoint, endpoints.lookup source = some endpoint → CreatedFor w endpoint source

namespace Filed

variable {endpoints : Endpoints}

theorem empty (w : World) : Filed ∅ w := by
  simp [Filed]

theorem mono (h : Filed endpoints w) (hw : Extends w w') : Filed endpoints w' :=
  fun source endpoint hl => (h source endpoint hl).mono hw

theorem erase (h : Filed endpoints w) (source : SocketAddr) :
    Filed (endpoints.erase source) w := by
  grind [Filed]

theorem insert (h : Filed endpoints w) {source : SocketAddr} {endpoint : Endpoint}
    (hc : CreatedFor w endpoint source) : Filed (endpoints.insert source endpoint) w := by
  grind [Filed]

theorem retainLoop (wanted : SocketAddr → Endpoint → Bool) (l : List (SocketAddr × Endpoint))
    (h : Filed endpoints w) : Safe env (UdpBypass.retainLoop wanted l endpoints) Filed w := by
  induction l generalizing endpoints w with
  | nil => exact safe_pure fun _ hw => h.mono hw
  | cons x rest ih =>
    -- closing the endpoint, and going on without it
    have hclose : ∀ w₁, Extends w w₁ → Safe env (do
        Method.close x.2
        UdpBypass.retainLoop wanted rest (endpoints.erase x.1)) Filed w₁ := fun w₁ hw =>
      safe_call (fun _ => trivial) fun _ w₂ hw₂ => ih ((h.mono (hw.trans hw₂)).erase x.1)
    unfold UdpBypass.retainLoop
    cases hwanted : wanted x.1 x.2 with
    | false => exact hclose w (.refl w)
    | true =>
      refine safe_call (fun _ => trivial) fun expired w₁ hw => ?_
      cases expired with
      | true => exact hclose w₁ hw
      | false => exact ih (h.mono hw)

theorem retain (wanted : SocketAddr → Endpoint → Bool) (h : Filed endpoints w) :
    Safe env (UdpBypass.retain wanted endpoints) Filed w :=
  safe_call (fun _ => trivial) fun l _ hw => (h.mono hw).retainLoop wanted l

/-- What is left for the source after `retire_stale` serves the request. -/
theorem retireStale (request : FlowRequest) (h : Filed endpoints w) :
    Safe env (UdpBypass.retireStale request endpoints) (fun out w => Filed out w ∧
      ∀ endpoint, out.lookup request.source = some endpoint → Serves endpoint request) w := by
  unfold UdpBypass.retireStale
  split
  case h_1 hnone =>
    refine safe_pure fun w' hw => ⟨h.mono hw, fun endpoint hl => ?_⟩
    rw [hnone] at hl
    cases hl
  case h_2 endpoint hsome =>
    split
    case isTrue =>
      refine safe_call (fun _ => trivial) fun _ w₁ hw => safe_pure fun w₂ hw₂ =>
        ⟨(h.mono (hw.trans hw₂)).erase _, fun endpoint hl => ?_⟩
      rw [AList.lookup_erase] at hl
      cases hl
    case isFalse hsame =>
      refine safe_pure fun w' hw => ⟨h.mono hw, fun endpoint' hl => ?_⟩
      obtain rfl := Option.some.inj (hsome.symm.trans hl)
      obtain ⟨howner, huses⟩ := not_or.mp hsame
      exact ⟨not_not.mp howner, Bool.not_eq_false _ ▸ huses⟩

theorem oldestIdle (l : List (SocketAddr × Endpoint)) (oldest : Option (SocketAddr × Nat)) :
    Safe env (UdpBypass.oldestIdle l oldest) (fun _ w' => Extends w w') w := by
  suffices H : Safe env (UdpBypass.oldestIdle l oldest) (fun _ _ => True) w from
    (safe_extends H).mono fun _ _ h => h.1
  induction l generalizing oldest w with
  | nil => exact safe_pure fun _ _ => trivial
  | cons x rest ih =>
    refine safe_call (fun _ => trivial) fun idle w₁ _ => ?_
    cases idle with
    | none => exact ih oldest
    | some activity =>
      cases oldest with
      | none => exact ih _
      | some least => exact ih _

theorem makeRoom (limit : Nat) (h : Filed endpoints w) :
    Safe env (UdpBypass.makeRoom limit endpoints)
      (fun out w' => Filed (out.getD endpoints) w') w := by
  unfold UdpBypass.makeRoom
  split
  case isTrue =>
    refine safe_call (fun _ => trivial) fun l w₁ hw₁ => ?_
    refine (oldestIdle l none).seq fun found w₂ hw₂ => ?_
    have h₂ := h.mono (hw₁.trans hw₂)
    split
    case h_1 => exact safe_pure fun w₃ hw₃ => h₂.mono hw₃
    case h_2 source _ =>
      split
      case h_1 => exact safe_pure fun w₃ hw₃ => h₂.mono hw₃
      case h_2 endpoint _ =>
        refine safe_call (fun _ => trivial) fun _ w₃ hw₃ => safe_pure fun w₄ hw₄ => ?_
        exact (h₂.mono (hw₃.trans hw₄)).erase source
  case isFalse => exact safe_pure fun w' hw => h.mono hw

/-- The endpoint found or created is one of the source, and serves the request. -/
theorem endpointFor (request : FlowRequest) (limit : Nat) (h : Filed endpoints w)
    (hserves : ∀ endpoint, endpoints.lookup request.source = some endpoint →
      Serves endpoint request) :
    Safe env (UdpBypass.endpointFor request limit endpoints) (fun out w => Filed out.2 w ∧
      ∀ endpoint, out.1 = .ok (some endpoint) →
        CreatedFor w endpoint request.source ∧ Serves endpoint request) w := by
  unfold UdpBypass.endpointFor
  split
  case h_1 endpoint hl =>
    refine safe_pure fun w' hw => ⟨h.mono hw, fun endpoint' heq => ?_⟩
    cases heq
    exact ⟨(h _ _ hl).mono hw, hserves endpoint hl⟩
  case h_2 =>
    refine (h.makeRoom limit).seq fun room w₁ h₁ => ?_
    split
    case h_1 => exact safe_pure fun w₂ hw₂ => ⟨h₁.mono hw₂, nofun⟩
    case h_2 left =>
      have h₁ : Filed left w₁ := h₁
      intro w₂ hw₂
      refine ⟨trivial, fun r w₃ hstep => ?_⟩
      have h₃ : Filed left w₃ := (h₁.mono (.reach hw₂)).mono (.step hstep)
      cases hstep with
      | bindFails => exact safe_pure fun w₄ hw₄ => ⟨h₃.mono hw₄, nofun⟩
      | bind =>
        have hc : CreatedFor (w₂.create request.source request.owner request.interface).2
            (w₂.create request.source request.owner request.interface).1 request.source :=
          ⟨_, List.getElem?_concat_length, rfl, rfl⟩
        refine safe_pure fun w₄ hw₄ => ⟨(h₃.insert hc).mono hw₄, fun endpoint heq => ?_⟩
        cases heq
        refine ⟨hc.mono hw₄, rfl, ?_⟩
        cases hs : request.source <;> exact beq_self_eq_true _

/-- A flow that is returned was opened for the request. -/
theorem openWith (request : FlowRequest) {pool : Pool} (h : Filed pool.endpoints w) :
    Safe env (UdpBypass.openWith request pool) (fun out w => Filed out.2.endpoints w ∧
      ∀ i, out.1 = .ok (some i) → ∃ flow, w.flows[i]? = some flow ∧ flow.request = request) w := by
  unfold UdpBypass.openWith
  split
  case isTrue => exact safe_pure fun w' hw => ⟨h.mono hw, nofun⟩
  case isFalse =>
    refine (h.retain _).seq fun kept w₁ h₁ => ?_
    refine (h₁.retireStale request).seq fun left w₂ h₂ => ?_
    refine (h₂.1.endpointFor request pool.limit h₂.2).seq fun found w₃ h₃ => ?_
    obtain ⟨found, endpoints⟩ := found
    obtain ⟨hfiled, hfound⟩ := h₃
    dsimp only at hfiled hfound ⊢
    split
    case h_1 => exact safe_pure fun w' hw => ⟨hfiled.mono hw, nofun⟩
    case h_2 => exact safe_pure fun w' hw => ⟨hfiled.mono hw, nofun⟩
    case h_3 endpoint =>
      obtain ⟨hcreated, hserves⟩ := hfound endpoint rfl
      intro w₄ hw₄
      refine ⟨⟨hcreated.mono (.reach hw₄), hserves⟩, fun r w₅ hstep => ?_⟩
      have h₅ : Filed endpoints w₅ := (hfiled.mono (.reach hw₄)).mono (.step hstep)
      cases hstep with
      | register =>
        refine safe_pure fun w₆ hw₆ => ⟨h₅.mono hw₆, fun i heq => ?_⟩
        obtain ⟨-, hno⟩ | ⟨st, -, -, hret, hflows, -, -⟩ := register_cases w₄ endpoint request
        · exact absurd heq (hno i)
        · have hi : w₄.flows.length = i := by
            have := hret.symm.trans heq
            cases this
            rfl
          subst hi
          obtain ⟨flow, hflow, hsame⟩ := hw₆.flows w₄.flows.length
            ⟨endpoint, request, [], none, true⟩
            (by rw [hflows, List.getElem?_concat_length])
          exact ⟨flow, hflow, hsame.2⟩

theorem maintainWith (owners : Option UdpOwners) (interface : Option BindInterface) {pool : Pool}
    (h : Filed pool.endpoints w) :
    Safe env (UdpBypass.maintainWith owners interface pool)
      (fun out w => Filed out.endpoints w) w := by
  have hunknown : Safe env (ownershipUnknown owners pool.ownerFailureSince)
      (fun _ w => Filed pool.endpoints w) w := by
    unfold ownershipUnknown
    split
    case h_1 => exact safe_pure fun w' hw => h.mono hw
    case h_2 =>
      -- the second look at the clock
      have hnow : ∀ since w₁, Extends w w₁ → Safe env (do
          let now ← Method.now
          pure (some since, decide (now - since < OWNER_FAILURE_GRACE)))
          (fun _ w => Filed pool.endpoints w) w₁ := fun since w₁ hw₁ =>
        safe_call (fun _ => trivial) fun _ w₂ hw₂ => safe_pure fun w₃ hw₃ =>
          h.mono ((hw₁.trans hw₂).trans hw₃)
      cases pool.ownerFailureSince with
      | none => exact safe_call (fun _ => trivial) fun since w₁ hw₁ => hnow since w₁ hw₁
      | some since => exact hnow since w (.refl w)
  refine hunknown.seq fun out w₁ h₁ => ?_
  refine (h₁.retain _).seq fun kept w₂ h₂ => ?_
  exact safe_pure fun w₃ hw₃ => h₂.mono hw₃

theorem shutdown (pool : Pool) :
    Safe env (UdpBypass.shutdown pool) (fun out w => Filed out.endpoints w) w := by
  have hclose : ∀ l w, Safe env (closeAll l) (fun _ _ => True) w := by
    intro l
    induction l with
    | nil => exact fun w => safe_pure fun _ _ => trivial
    | cons x rest ih => exact fun w => safe_call (fun _ => trivial) fun _ w₂ _ => ih w₂
  refine safe_call (fun _ => trivial) fun l w₁ _ => ?_
  exact (hclose l w₁).seq fun _ w₂ _ => safe_pure fun w₃ _ => Filed.empty w₃

end Filed

/-! ## 6. Every run -/

/-- The pool is in order, and the flows it has returned were opened for what it was asked for. -/
structure Phase.InOrder (phase : Phase) (w : World) : Prop where
  filed : Filed phase.pool.endpoints w
  opened : ∀ x ∈ phase.opened, ∃ flow, w.flows[x.2]? = some flow ∧ flow.request = x.1

theorem Phase.InOrder.mono {phase : Phase} (h : phase.InOrder w) (hw : Extends w w') :
    phase.InOrder w' := by
  refine ⟨h.filed.mono hw, fun x hx => ?_⟩
  obtain ⟨flow, hflow, hrequest⟩ := h.opened x hx
  obtain ⟨flow', hflow', hsame⟩ := hw.flows _ flow hflow
  exact ⟨flow', hflow', hsame.2.trans hrequest⟩

/-- A method that leaves the pool in order, on its own. -/
theorem Phase.InOrder.update {phase : Phase} (h : phase.InOrder w) {p : Method Pool}
    (hp : Safe env p (fun out w => Filed out.endpoints w) w) :
    Safe env (p >>= fun pool => pure { phase with pool := pool }) Phase.InOrder w := by
  refine (safe_extends hp).seq fun pool w₁ h₁ => safe_pure fun w₂ hw₂ => ?_
  exact ⟨h₁.2.mono hw₂, (h.mono (h₁.1.trans hw₂)).opened⟩

theorem next_inOrder {phase : Phase} {p : Method Phase} (h : Next phase p) :
    Triple env phase.InOrder p Phase.InOrder := by
  intro w hw
  cases h with
  | openWith request =>
    refine (safe_extends (hw.filed.openWith request)).seq fun out w₁ h₁ =>
      safe_pure fun w₂ hw₂ => ?_
    obtain ⟨hext, hfiled, hflow⟩ := h₁
    have hold := hw.mono (hext.trans hw₂)
    unfold Phase.returned
    split
    case h_1 flow pool =>
      refine ⟨hfiled.mono hw₂, fun x hx => ?_⟩
      rcases List.mem_cons.mp hx with rfl | hx
      · obtain ⟨flow', hflow', hrequest⟩ := hflow flow rfl
        obtain ⟨flow'', hflow'', hsame⟩ := hw₂.flows _ flow' hflow'
        exact ⟨flow'', hflow'', hsame.2.trans hrequest⟩
      · exact hold.opened x hx
    case h_2 => exact ⟨hfiled.mono hw₂, hold.opened⟩
  | maintainWith owners interface => exact hw.update (hw.filed.maintainWith owners interface)
  | shutdown => exact hw.update (Filed.shutdown phase.pool)

/-- Every flow is on an endpoint that was created for its source and serves it. -/
def Placed (w : World) : Prop :=
  ∀ (i : Nat) flow, w.flows[i]? = some flow →
    CreatedFor w flow.endpoint flow.request.source ∧ Serves flow.endpoint flow.request

theorem Placed.mono (h : Placed w) (hw : Extends w w')
    (hlen : w'.flows.length = w.flows.length) : Placed w' := by
  intro i flow' hflow'
  have hi : i < w.flows.length := hlen ▸ (List.getElem?_eq_some_iff.mp hflow').1
  obtain ⟨flow, hflow, hsame⟩ := hw.flow_back hflow' hi
  obtain ⟨hcreated, hserves⟩ := h i flow hflow
  rw [hsame.1, hsame.2]
  exact ⟨hcreated.mono hw, hserves⟩

/-- A call that is allowed puts a flow in its place. -/
theorem Placed.step (h : Placed w) {op : PoolOp} (hok : Allowed w op) {r : op.Result}
    (hstep : op.Step w r w') : Placed w' := by
  have hext := Extends.step hstep
  cases hstep with
  | now | iter | expired | idleSince | bindFails => exact h
  | close | bind => exact h.mono hext rfl
  | register endpoint request =>
    obtain ⟨heq, -⟩ | ⟨st, -, -, -, hflows, -, -⟩ := register_cases w endpoint request
    · rwa [heq]
    intro i flow hflow
    obtain hflow | rfl : w.flows[i]? = some flow ∨ flow = ⟨endpoint, request, [], none, true⟩ := by
      grind
    · obtain ⟨hcreated, hserves⟩ := h i flow hflow
      exact ⟨hcreated.mono hext, hserves⟩
    · exact ⟨hok.1.mono hext, hok.2⟩

section Run

variable {p p' : Method Phase}

/-- The next call of a run is allowed, and the pool is in order when the lock is free. -/
theorem run_safe {limit : Nat}
    (h : ReflTransGen Move (pure (Phase.new limit), World.start) (p, w)) :
    Safe env p Phase.InOrder w :=
  Safe.reach (fun _ _ h => next_inOrder h)
    (safe_pure fun w' _ => ⟨Filed.empty w', fun _ hx => absurd hx List.not_mem_nil⟩) h

/-- **The invariants hold in every state of every run.** -/
theorem run_sound {limit : Nat}
    (h : ReflTransGen Move (pure (Phase.new limit), World.start) (p, w)) :
    Sound w ∧ Placed w := by
  suffices H : ∀ c, ReflTransGen Move (pure (Phase.new limit), World.start) c →
      Sound c.2 ∧ Placed c.2 from H (p, w) h
  intro c hc
  induction hc with
  | refl => exact ⟨Sound.start, fun i flow hflow => by cases hflow⟩
  | tail hpre hmove ih =>
    obtain ⟨hsound, hplaced⟩ := ih
    cases hmove with
    | others hstep =>
      exact ⟨hsound.others hstep, hplaced.mono (.others hstep) hstep.flows_length⟩
    | call hstep => exact ⟨hsound.step hstep, hplaced.step (run_safe hpre).allowed hstep⟩
    | start => exact ⟨hsound, hplaced⟩

/-- What is there only grows, along every run that starts in a sound state. -/
theorem run_grows (hsound : Sound w) (h : ReflTransGen Move (p, w) (p', w')) :
    Grows w w' ∧ Sound w' := by
  suffices H : ∀ c, ReflTransGen Move (p, w) c → Grows w c.2 ∧ Sound c.2 from H (p', w') h
  intro c hc
  induction hc with
  | refl => exact ⟨.refl w, hsound⟩
  | tail _ hmove ih =>
    obtain ⟨hgrows, hs⟩ := ih
    cases hmove with
    | others hstep => exact ⟨hgrows.trans (hstep.grows hs), hs.others hstep⟩
    | call hstep => exact ⟨hgrows.trans (PoolOp.Step.grows hs hstep), hs.step hstep⟩
    | start => exact ⟨hgrows, hs⟩

/-- Between the two states nothing passes through a flow of the endpoint, and no route is added. -/
structure Silent (e : Nat) (w w' : World) : Prop where
  sent : ∃ l, w'.sent = w.sent ++ l ∧
    ∀ x ∈ l, ∃ flow, w'.flows[x.flow]? = some flow ∧ flow.endpoint.id ≠ e
  injected : ∃ l, w'.injected = w.injected ++ l ∧
    ∀ x ∈ l, ∃ flow, w'.flows[x.flow]? = some flow ∧ flow.endpoint.id ≠ e
  routes : ∀ peer, w'.route e peer = none
  flows : ∀ (i : Nat) flow, w'.flows[i]? = some flow → w.flows.length ≤ i → flow.endpoint.id ≠ e

theorem Passed.OnOpen.elsewhere {x : Passed} (h : x.OnOpen w w') (hr : w.Retired e) :
    ∃ flow, w'.flows[x.flow]? = some flow ∧ flow.endpoint.id ≠ e := by
  obtain ⟨flow, hflow, hopen⟩ := h
  refine ⟨flow, hflow, fun he => hopen ?_⟩
  rwa [he]

theorem Sound.retired_route (h : Sound w) (hr : w.Retired e) (peer : SocketAddr) :
    w.route e peer = none := by
  obtain ⟨st, hst, hret⟩ := hr
  rw [World.route, hst]
  show st.routes.lookup peer = none
  rw [(h.retired e st hst hret).2, AList.lookup_empty]

theorem Grows.silent (h : Grows w w') (hsound : Sound w') (hr : w.Retired e) : Silent e w w' := by
  obtain ⟨sent, hsent, hsentOpen⟩ := h.sent
  obtain ⟨injected, hinjected, hinjectedOpen⟩ := h.injected
  refine ⟨⟨sent, hsent, fun x hx => (hsentOpen x hx).elsewhere hr⟩,
    ⟨injected, hinjected, fun x hx => (hinjectedOpen x hx).elsewhere hr⟩,
    hsound.retired_route (h.toExtends.retired hr), fun i flow hflow hi he => ?_⟩
  refine h.fresh i flow hflow hi ?_
  rwa [he]

/-- A living flow of an open endpoint has its route. -/
theorem Sound.alive_routed (h : Sound w) {i : Nat} {flow : Flow} {st : EndpointState}
    (hflow : w.flows[i]? = some flow) (halive : flow.alive = true)
    (hst : w.endpoints[flow.endpoint.id]? = some st) (hopen : st.closed = false) :
    st.routes.lookup flow.request.peer = some i := by
  obtain ⟨st', hst', hlookup⟩ := h.registered i flow hflow
  obtain rfl := Option.some.inj (hst.symm.trans hst')
  refine hlookup halive ?_
  cases hr : st.retired with
  | false => rfl
  | true => exact absurd ⟨st, hst, hr⟩ (h.open_not_retired hst hopen)

/-- Two living flows of an open endpoint have two peers. -/
theorem Sound.exclusive (h : Sound w) {i j : Nat} {flow other : Flow} {st : EndpointState}
    (hflow : w.flows[i]? = some flow) (halive : flow.alive = true)
    (hst : w.endpoints[flow.endpoint.id]? = some st) (hopen : st.closed = false)
    (hother : w.flows[j]? = some other) (halive' : other.alive = true)
    (hendpoint : other.endpoint = flow.endpoint) (hpeer : other.request.peer = flow.request.peer) :
    j = i := by
  have hi := h.alive_routed hflow halive hst hopen
  have hj := h.alive_routed hother halive' (hendpoint ▸ hst) hopen
  rw [hpeer, hi] at hj
  exact (Option.some.inj hj).symm

/-- **Dropping a flow** takes away no route of another. -/
theorem Sound.dropFlow_route (h : Sound w) {i j : Nat} {flow : Flow}
    (hflow : w.flows[i]? = some flow) (halive : flow.alive = true) {peer : SocketAddr}
    (hj : j ≠ i) (hroute : w.route e peer = some j) : (w.dropFlow i).route e peer = some j := by
  obtain ⟨st, hst, hlookup⟩ := Option.bind_eq_some_iff.mp hroute
  obtain ⟨st₁, hst₁, hown⟩ := h.registered i flow hflow
  have hret : st.retired = false := by
    have hempty := h.retired e st hst
    grind
  rw [World.dropFlow, hflow]
  -- the erased peer is that of the flow itself, if it is a route at all
  grind [World.route]

/-- **Closing an endpoint** changes no route of another, and a second time none at all. -/
theorem Sound.close_route (h : Sound w) {e' : Nat} (hother : e' ≠ e ∨ w.Retired e)
    (peer : SocketAddr) : (w.close e).route e' peer = w.route e' peer := by
  by_cases he : e' = e
  · subst he
    have hr : w.Retired e' := hother.resolve_left (fun hne => hne rfl)
    rw [h.retired_route hr, (h.close e').retired_route ((Extends.step (.close e')).retired hr)]
  · have hsame : (w.close e).endpoints[e']? = w.endpoints[e']? := by
      rw [World.close, World.modifyEndpoint, List.getElem?_modify_ne _ _ (Ne.symm he)]
    rw [World.route, World.route, hsame]

/-- **Bypass flows never cross owners.** In every state of every run of the pool, its flows and its
    receiver tasks:
    a flow that was returned was opened for the request it was returned for, and sits on an
    endpoint created for its source, of its owner and on its interface; no other living flow has
    the endpoint and the peer while the endpoint is open;
    what is injected was received on the socket of the flow's endpoint, from the flow's peer;
    once an endpoint is retired, nothing passes through its flows any more and no route is added;
    and dropping a flow or retiring an endpoint takes away no route of another flow or another
    endpoint, nor one registered since. -/
theorem bypass_flows_isolated (limit : Nat)
    (hrun : ReflTransGen Move (pure (Phase.new limit), World.start) (p, w)) :
    (∀ phase, p = pure phase → ∀ request i, (request, i) ∈ phase.opened →
      ∃ flow, w.flows[i]? = some flow ∧ flow.request = request) ∧
    (∀ (i : Nat) flow, w.flows[i]? = some flow → ∃ st,
      w.endpoints[flow.endpoint.id]? = some st ∧ st.endpoint = flow.endpoint ∧
      st.source = flow.request.source ∧ flow.endpoint.owner = flow.request.owner ∧
      flow.endpoint.usesInterface flow.request.source flow.request.interface = true ∧
      (flow.alive = true → st.closed = false → ∀ (j : Nat) other, w.flows[j]? = some other →
        other.alive = true → other.endpoint = flow.endpoint →
        other.request.peer = flow.request.peer → j = i)) ∧
    (∀ x ∈ w.injected, ∃ flow, w.flows[x.flow]? = some flow ∧ flow.Own w.received x.datagram) ∧
    (∀ e, w.Retired e → ∀ p' w', ReflTransGen Move (p, w) (p', w') → Silent e w w') ∧
    (∀ (i : Nat) flow, w.flows[i]? = some flow → flow.alive = true → ∀ e peer j, j ≠ i →
      w.route e peer = some j → (w.dropFlow i).route e peer = some j) ∧
    (∀ e e' peer, e' ≠ e ∨ w.Retired e → (w.close e).route e' peer = w.route e' peer) := by
  obtain ⟨hsound, hplaced⟩ := run_sound hrun
  refine ⟨?_, ?_, hsound.injected, ?_, ?_, ?_⟩
  · rintro phase rfl request i hi
    exact (run_safe hrun).result.opened (request, i) hi
  · intro i flow hflow
    obtain ⟨⟨st, hst, hendpoint, hsource⟩, hserves⟩ := hplaced i flow hflow
    refine ⟨st, hst, hendpoint, hsource, hserves.owner, hserves.interface, ?_⟩
    exact fun halive hopen j other => hsound.exclusive hflow halive hst hopen
  · intro e hr p' w' hlater
    obtain ⟨hgrows, hsound'⟩ := run_grows hsound hlater
    exact hgrows.silent hsound' hr
  · exact fun i flow hflow halive e peer j => hsound.dropFlow_route hflow halive
  · exact fun e e' peer hother => hsound.close_route hother peer

end Run

/-! ## 7. A sample run -/

section Sample

/-- Sockets can be opened, and maps are walked in the order of their lists. -/
def PoolOp.answer (w : World) : (op : PoolOp) → op.Result × World
  | now => (w.now, w)
  | iter endpoints => (endpoints.entries.map fun x => (x.1, x.2), w)
  | expired e => (w.expired e, w)
  | close e => ((), w.close e)
  | idleSince e => (w.idleSince e, w)
  | bind source owner interface =>
    ((.ok (w.create source owner interface).1 : Except Error Endpoint),
      (w.create source owner interface).2)
  | register endpoint request => w.register endpoint request

theorem PoolOp.answer_step (w : World) (op : PoolOp) :
    op.Step w (op.answer w).1 (op.answer w).2 := by
  cases op with
  | now => exact .now
  | iter endpoints => exact .iter (.refl _)
  | expired e => exact .expired e
  | close e => exact .close e
  | idleSince e => exact .idleSince e
  | bind source owner interface => exact .bind source owner interface
  | register endpoint request => exact .register endpoint request

/-- One application socket and one peer, for the process with this number. -/
def sampleRequest (pid : UInt32) : FlowRequest :=
  ⟨.v4 0x0A000002#32 5000, .v4 0x01010101#32 53, ⟨pid, 0⟩, ⟨7, 7⟩⟩

def sampleOpen (pid : UInt32) (phase : Phase) : Method Phase :=
  openWith (sampleRequest pid) phase.pool >>= fun out =>
    pure (phase.returned (sampleRequest pid) out)

/-- The pool and the world after a process has opened the flow. -/
def sampleOpened (pid : UInt32) (c : Phase × World) : Phase × World :=
  (sampleOpen pid c.1).exec (fun w op => op.answer w) c.2

theorem sampleOpened_moves (pid : UInt32) (c : Phase × World) :
    ReflTransGen Move (pure c.1, c.2) (pure (sampleOpened pid c).1, (sampleOpened pid c).2) :=
  .head (.start (.openWith (sampleRequest pid)))
    (Prog.Runs.moves (Prog.Runs.exec PoolOp.answer_step _ _))

/-- The first process has its flow. -/
def sampleFirst : Phase × World := sampleOpened 1 (.new 4, .start)

def sampleReply : Datagram := ⟨0, .v4 0x01010101#32 53, [7]⟩

/-- The reply of the peer is in the queue of the flow. -/
def sampleQueued : World :=
  (({ (sampleFirst.2.modifyEndpoint 0 fun st => { st with
        receiver := .received sampleReply.peer sampleReply.bytes }) with
      received := sampleFirst.2.received ++ [⟨0, sampleReply.peer, sampleReply.bytes⟩] } : World)
    |>.modifyEndpoint 0 fun st => { st with receiver := .waiting, lastActivity := 0 })
    |>.modifyFlow 0 fun flow => { flow with
      queue := flow.queue ++ [⟨0, sampleReply.peer, sampleReply.bytes⟩] }

/-- The second process has taken over the application socket. -/
def sampleSecond : Phase × World := sampleOpened 2 (sampleFirst.1, sampleQueued)

theorem sampleQueued_moves :
    ReflTransGen Move (pure sampleFirst.1, sampleFirst.2) (pure sampleFirst.1, sampleQueued) := by
  obtain ⟨st, hst, hwaiting⟩ : ∃ st, sampleFirst.2.endpoints[0]? = some st ∧
      st.receiver = .waiting := ⟨_, rfl, rfl⟩
  refine .head (.others (.recvFrom sampleReply.peer sampleReply.bytes hst hwaiting)) ?_
  refine .single (.others (.route (i := 0) rfl rfl ?_ rfl ?_))
  · decide +kernel
  · decide

/-- A reply that waits when the application socket changes hands is never injected: the endpoint
    of the first process is retired, and the second one has its own. -/
theorem sample_bypass_flows_isolated :
    sampleSecond.1.opened = [(sampleRequest 2, 1), (sampleRequest 1, 0)] ∧
    sampleSecond.2.flows.map (·.queue) = [[sampleReply], []] ∧ sampleSecond.2.Retired 0 ∧
    ∀ p' w', ReflTransGen Move (pure sampleSecond.1, sampleSecond.2) (p', w') →
      Silent 0 sampleSecond.2 w' := by
  have hretired : sampleSecond.2.Retired 0 := ⟨_, rfl, rfl⟩
  refine ⟨by decide +kernel, by decide +kernel, hretired, ?_⟩
  have hrun : ReflTransGen Move (pure (Phase.new 4), World.start)
      (pure sampleSecond.1, sampleSecond.2) :=
    ((sampleOpened_moves 1 (.new 4, .start)).trans sampleQueued_moves).trans
      (sampleOpened_moves 2 (sampleFirst.1, sampleQueued))
  exact (bypass_flows_isolated 4 hrun).2.2.2.1 0 hretired

end Sample

end Tun2Proxy.UdpBypass
