/-
  File:      Tun2Proxy/Udpgw/Delivery.lean
  Subject:   No stale delivery: what the udpgw server writes belongs to the current generation.

  Items wait in the queue and in the hands of the tasks (`Pending`) while the request loop opens,
  re-targets and closes connections. Four invariants of every run say why none of them reaches
  the client too late:

  * `LockInv`: who stands in a critical section of the delivery lock holds it;
  * `KnownInv`: a generation that stands anywhere was taken off the counter;
  * `CurrentInv`: what the request loop has made current, and what the writer found current,
    still is, as nobody else changes `generations`;
  * `OriginInv`: an item of a generation answers for a session of that generation, and a
    generation just taken has neither.

  A generation that is not current and was taken before never becomes current again (`Retired`),
  although connection numbers are used again and again.
-/
import Mathlib.Logic.Relation
import Tun2Proxy.Udpgw.Server

namespace Tun2Proxy.Udpgw

/-! ## 1. What the tasks hold -/

/-- The request loop holds the delivery lock. -/
def RequestPc.locks : RequestPc → Bool
  | .inserting .. | .evicting .. | .forgetting _ | .dropping _ | .binding .. | .sending ..
  | .undoing .. => true
  | _ => false

/-- The generation the request loop works with. -/
def RequestPc.generation : RequestPc → Option Nat
  | .inserting _ g _ | .evicting _ g _ | .reusing _ g | .resolving _ g | .opening _ g _
  | .binding _ g _ | .sending _ g _ | .undoing _ g | .spawning _ g _ => some g
  | _ => none

/-- The generation the request loop has made current, with its connection. -/
def RequestPc.current : RequestPc → Option (UInt16 × Nat)
  | .evicting c g _ | .sending c g _ | .undoing c g | .spawning c g _ => some (c, g)
  | .resolving r g | .opening r g _ | .binding r g _ => some (r.connId, g)
  | _ => none

/-- The connection for which `replace_generation` or `close_session` is about to complete: one more
    step of the request loop ends it. -/
def RequestPc.retiring : RequestPc → Option UInt16
  | .evicting c _ _ | .dropping c => some c
  | _ => none

/-- The generation the request loop has taken and not yet opened a session for. -/
def RequestPc.unopened : RequestPc → Option Nat
  | .inserting _ g _ | .evicting _ g _ | .resolving _ g | .opening _ g _ | .binding _ g _ => some g
  | _ => none

/-- The session the request loop has just opened. -/
def RequestPc.newSession : RequestPc → Option Opened
  | .sending c g dst | .spawning c g dst => some ⟨g, c, dst⟩
  | _ => none

def RequestPc.hand : RequestPc → Option OutboundItem
  | .responding item => some item
  | _ => none

def RelayPc.hand : RelayPc → Option OutboundItem
  | .queueing item => some item
  | _ => none

/-- The writer holds the delivery lock. -/
def WriterPc.locks : WriterPc → Bool
  | .checking _ | .writing _ => true
  | _ => false

def WriterPc.hand : WriterPc → Option OutboundItem
  | .waiting item | .checking item | .writing item => some item
  | _ => none

/-- What a packet sends the request loop to: nothing is locked or taken yet, and only a keep-alive
    response can be in its hand. -/
theorem dispatch_spec (udpMtu : UInt16) (packet : Packet) :
    (dispatch udpMtu packet).locks = false ∧ (dispatch udpMtu packet).generation = none ∧
      (dispatch udpMtu packet).current = none ∧ (dispatch udpMtu packet).unopened = none ∧
      (dispatch udpMtu packet).newSession = none ∧
      (∀ c, dispatch udpMtu packet ≠ .dropping c) ∧
      ∀ item, (dispatch udpMtu packet).hand = some item → ∃ c, item = keepaliveItem c := by
  unfold dispatch
  repeat' split
  all_goals
    simp [RequestPc.locks, RequestPc.generation, RequestPc.current, RequestPc.unopened,
      RequestPc.newSession, RequestPc.hand]

namespace Server

/-- An item that may still be written: in the queue, or in the hand of a task. -/
inductive Pending (s : Server) (item : OutboundItem) : Prop
  | queued (h : item ∈ s.queue)
  | request (h : s.request.hand = some item)
  | relay {g : Nat} {r : Relay} (hr : s.relays g = some r) (h : r.pc.hand = some item)
  | writer (h : s.writer.hand = some item)

end Server

open Server

section Steps

variable {codec : AddressCodec} {udpMtu : UInt16} {idleMs : Nat} {s s' : Server}

/-! ## 2. The delivery lock -/

/-- The lock is held by the task that stands in a critical section. -/
structure LockInv (s : Server) : Prop where
  request : s.lock = some .request ↔ s.request.locks = true
  writer : s.lock = some .writer ↔ s.writer.locks = true

theorem lockInv_step (h : LockInv s) (hs : Step codec udpMtu idleMs s s') : LockInv s' := by
  obtain ⟨h1, h2⟩ := h
  cases hs with
  | request hs =>
    cases hs with
    | packet hpc packet =>
      have hd := (dispatch_spec udpMtu packet).1
      constructor <;> simp_all [RequestPc.locks]
    | _ => constructor <;> simp_all [RequestPc.locks, evict, removeOwn, setRelay]
  | relay hr hs => cases hs <;> exact ⟨h1, h2⟩
  | writer hs => cases hs <;> constructor <;> simp_all [WriterPc.locks]
  | tick n => exact ⟨h1, h2⟩
  | otherClient => exact ⟨h1, h2⟩

/-! ## 3. What a step can do -/

theorem update_some {α β : Type} [DecidableEq α] {f : α → Option β} {a b : α} {v : Option β}
    {x : β} (h : Function.update f a v b = some x) :
    (b = a ∧ v = some x) ∨ (b ≠ a ∧ f b = some x) := by
  rw [Function.update_apply] at h
  split_ifs at h with hb
  · exact .inl ⟨hb, h⟩
  · exact .inr ⟨hb, h⟩

theorem update_none {α β : Type} [DecidableEq α] {f : α → Option β} {a b : α} {x : β}
    (h : Function.update f a none b = some x) : b ≠ a ∧ f b = some x := by
  rcases update_some h with ⟨_, h⟩ | h
  · cases h
  · exact h

variable {c : UInt16} {g : Nat}

theorem removeOwn_some {c' : UInt16} {x : Session} (h : (s.removeOwn c g).sessions c' = some x) :
    s.sessions c' = some x := by
  unfold removeOwn at h
  simp only at h
  split at h
  · exact (update_none h).2
  · exact h

/-- A step of the request loop makes a generation current in `insert` only. -/
theorem generations_request (hs : RequestStep udpMtu s s') (h : s'.generations c = some g) :
    s.generations c = some g ∨ ∃ k, s.request = .inserting c g k := by
  cases hs
  case insert c' g' k hpc =>
    rcases update_some h with ⟨rfl, hg⟩ | ⟨_, h⟩
    · cases hg
      exact Or.inr ⟨k, hpc⟩
    · exact Or.inl h
  case forget c' hpc => exact Or.inl (update_none h).2
  all_goals exact Or.inl h

/-- A step of the request loop opens a session in `bind` only. -/
theorem opened_request (hs : RequestStep udpMtu s s') :
    s'.opened = s.opened ∨ ∃ r g dst, s.request = .binding r g dst ∧
      s'.opened = ⟨g, r.connId, dst⟩ :: s.opened ∧ s'.request = .sending r.connId g dst ∧
      s'.generations = s.generations := by
  cases hs
  case bind r g dst hpc => exact Or.inr ⟨r, g, dst, hpc, rfl, rfl, rfl⟩
  all_goals exact Or.inl rfl

/-- A step of the request loop adds a session in `bind` only. -/
theorem sessions_request (hs : RequestStep udpMtu s s') {x : Session} (h : s'.sessions c = some x) :
    s.sessions c = some x ∨ s.request.generation = some x.generation := by
  cases hs
  case bind r g dst hpc =>
    rcases update_some h with ⟨rfl, hx⟩ | ⟨_, h⟩
    · cases hx
      rw [hpc]
      exact Or.inr rfl
    · exact Or.inl h
  case replaced hpc => exact Or.inl (update_none h).2
  case switched hpc => exact Or.inl (update_none h).2
  case drop hpc => exact Or.inl (update_none h).2
  case undo hpc => exact Or.inl (removeOwn_some h)
  all_goals exact Or.inl h

/-- The generation of the request loop is one it had, the next one, or that of a session. -/
theorem generation_request (hs : RequestStep udpMtu s s') (h : s'.request.generation = some g) :
    s.request.generation = some g ∨
      (g = s.nextGeneration ∧ s'.nextGeneration = s.nextGeneration + 1) ∨
      ∃ c x, s.sessions c = some x ∧ x.generation = g := by
  cases hs
  case packet _ packet => rw [(dispatch_spec udpMtu packet).2.1] at h; cases h
  case lockReplace hpc hlock => cases h; exact Or.inr (Or.inl ⟨rfl, rfl⟩)
  case reuse r x hpc hx haddr => cases h; exact Or.inr (Or.inr ⟨_, _, hx, rfl⟩)
  all_goals first
    | cases h
      done
    | cases h
      simp [*, RequestPc.generation]

/-- The relay tasks after a step of the request loop: at most a new one, that of the session just
    opened. -/
theorem relays_request (hs : RequestStep udpMtu s s') {r : Relay} (h : s'.relays g = some r) :
    s.relays g = some r ∨
      (r.pc = .receiving ∧ s.request.newSession = some ⟨g, r.connId, r.dst⟩) := by
  cases hs
  case spawn c g' dst hpc =>
    rcases update_some h with ⟨rfl, hr⟩ | ⟨_, h⟩
    · cases hr
      rw [hpc]
      exact Or.inr ⟨rfl, rfl⟩
    · exact Or.inl h
  all_goals exact Or.inl h

theorem nextGeneration_step (hs : Step codec udpMtu idleMs s s') :
    s.nextGeneration ≤ s'.nextGeneration := by
  cases hs with
  | request hs =>
    cases hs
    case lockReplace hpc hlock => exact Nat.le_succ _
    all_goals exact le_refl _
  | relay hr hs => cases hs <;> exact le_refl _
  | writer hs => cases hs <;> exact le_refl _
  | tick n => exact le_refl _
  | otherClient => exact Nat.le_succ _

/-- What a step of the relay task `r` of generation `g` can do. -/
structure RelayEffect (codec : AddressCodec) (udpMtu : UInt16) (g : Nat) (r : Relay)
    (s s' : Server) : Prop where
  nextGeneration : s'.nextGeneration = s.nextGeneration
  generations : s'.generations = s.generations
  request : s'.request = s.request
  writer : s'.writer = s.writer
  opened : s'.opened = s.opened
  written : s'.written = s.written
  received : ∀ d ∈ s.received, d ∈ s'.received
  sessions : ∀ c x, s'.sessions c = some x → s.sessions c = some x
  queue : ∀ item ∈ s'.queue, item ∈ s.queue ∨ r.pc.hand = some item
  others : ∀ g', g' ≠ g → s'.relays g' = s.relays g'
  own : ∀ r', s'.relays g = some r' → r'.connId = r.connId ∧ r'.dst = r.dst ∧
    (∀ data, r'.pc = .arrived data → ⟨g, r.dst, data⟩ ∈ s'.received) ∧
    ∀ item, r'.pc.hand = some item → ∃ data packet, r.pc = .arrived data ∧
      response codec udpMtu r.connId r.dst data = some packet ∧ item = ⟨packet, some g⟩

theorem relayEffect {r : Relay} (hs : RelayStep codec udpMtu idleMs g r s s') :
    RelayEffect codec udpMtu g r s s' := by
  have others : ∀ x g', g' ≠ g → Function.update s.relays g x g' = s.relays g' :=
    fun x g' hne => Function.update_of_ne hne ..
  have own : ∀ {x r'}, Function.update s.relays g x g = some r' → x = some r' :=
    fun h => by rwa [Function.update_self] at h
  cases hs
  case receive data hpc =>
    refine ⟨rfl, rfl, rfl, rfl, rfl, rfl, fun _ => List.mem_cons_of_mem _, fun _ _ h => h,
      fun _ h => Or.inl h, others _, fun r' h => ?_⟩
    cases own h
    refine ⟨rfl, rfl, fun _ e => ?_, fun _ e => by cases e⟩
    cases e
    exact List.mem_cons_self
  case receiveOther =>
    refine ⟨rfl, rfl, rfl, rfl, rfl, rfl, fun _ => List.mem_cons_of_mem _, fun _ _ h => h,
      fun _ h => Or.inl h, others _, fun r' h => ?_⟩
    cases own h
    exact ⟨rfl, rfl, (fun _ e => by cases e), fun _ e => by cases e⟩
  case relay data packet hpc hstop hpacket =>
    refine ⟨rfl, rfl, rfl, rfl, rfl, rfl, fun _ h => h, fun _ _ h => h, fun _ h => Or.inl h,
      others _, fun r' h => ?_⟩
    cases own h
    refine ⟨rfl, rfl, (fun _ e => by cases e), fun _ e => ?_⟩
    cases e
    exact ⟨data, packet, hpc, hpacket, rfl⟩
  case queue item hpc hroom =>
    refine ⟨rfl, rfl, rfl, rfl, rfl, rfl, fun _ h => h, fun _ _ h => h, fun item' h => ?_,
      others _, fun r' h => ?_⟩
    · rcases List.mem_append.mp h with h | h
      · exact Or.inl h
      · cases List.mem_singleton.mp h
        rw [hpc]
        exact Or.inr rfl
    · cases own h
      exact ⟨rfl, rfl, (fun _ e => by cases e), fun _ e => by cases e⟩
  -- the other steps move the task on and take at most a session out
  all_goals
    refine ⟨rfl, rfl, rfl, rfl, rfl, rfl, fun _ h => h, fun _ _ h => ?_, fun _ h => Or.inl h,
      others _, fun r' h => ?_⟩
    · first
      | exact h
      | exact (update_none h).2
      | exact removeOwn_some h
    · cases own h
      try exact ⟨rfl, rfl, (fun _ e => by cases e), fun _ e => by cases e⟩

/-! ## 4. Where items come from -/

variable {item : OutboundItem}

/-- The request loop makes keep-alive responses and error packets of its generation. -/
theorem pending_request (hs : RequestStep udpMtu s s') (h : s'.Pending item) :
    s.Pending item ∨ (∃ c, item = keepaliveItem c) ∨
      ∃ c g, item = errorItem c g ∧ s.request.generation = some g ∧
        s'.request = .responding item := by
  cases hs
  case packet hpc packet =>
    cases h with
    | queued h => exact Or.inl (.queued h)
    | request h => exact Or.inr (Or.inl ((dispatch_spec udpMtu packet).2.2.2.2.2.2 item h))
    | relay hr h => exact Or.inl (.relay hr h)
    | writer h => exact Or.inl (.writer h)
  case spawn c g dst hpc =>
    cases h with
    | queued h => exact Or.inl (.queued h)
    | request h => cases h
    | relay hr h =>
      rcases update_some hr with ⟨_, hr⟩ | ⟨_, hr⟩
      · cases hr
        cases h
      · exact Or.inl (.relay hr h)
    | writer h => exact Or.inl (.writer h)
  case respond item' hpc hroom =>
    cases h with
    | queued h =>
      rcases List.mem_append.mp h with h | h
      · exact Or.inl (.queued h)
      · cases List.mem_singleton.mp h
        exact Or.inl (.request (by rw [hpc]; rfl))
    | request h => cases h
    | relay hr h => exact Or.inl (.relay hr h)
    | writer h => exact Or.inl (.writer h)
  -- the queue, the relay tasks and the writer stay; the hand is empty or has an error packet
  all_goals
    cases h with
    | queued h => exact Or.inl (.queued h)
    | request h =>
      first
      | cases h
        done
      | cases h
        exact Or.inr (Or.inr ⟨_, _, rfl, by simp [*, RequestPc.generation], rfl⟩)
    | relay hr h => exact Or.inl (.relay hr h)
    | writer h => exact Or.inl (.writer h)

/-- A relay task makes the response to the datagram it received. -/
theorem pending_relay {r : Relay} (hr : s.relays g = some r)
    (hs : RelayEffect codec udpMtu g r s s') (h : s'.Pending item) :
    s.Pending item ∨ ∃ data packet, r.pc = .arrived data ∧
      response codec udpMtu r.connId r.dst data = some packet ∧ item = ⟨packet, some g⟩ := by
  cases h with
  | queued h =>
    rcases hs.queue item h with h | h
    · exact Or.inl (.queued h)
    · exact Or.inl (.relay hr h)
  | request h => exact Or.inl (.request (hs.request ▸ h))
  | @relay g' r' hr' h =>
    by_cases hg : g' = g
    · subst hg
      exact Or.inr ((hs.own r' hr').2.2.2 item h)
    · rw [hs.others g' hg] at hr'
      exact Or.inl (.relay hr' h)
  | writer h => exact Or.inl (.writer (hs.writer ▸ h))

/-- Pending items depend on the queue and the tasks only. -/
theorem pending_congr (h : s'.Pending item) (hqueue : s'.queue = s.queue)
    (hrequest : s'.request = s.request) (hrelays : s'.relays = s.relays)
    (hwriter : s'.writer = s.writer) : s.Pending item := by
  cases h with
  | queued h => exact .queued (hqueue ▸ h)
  | request h => exact .request (hrequest ▸ h)
  | relay hr h => exact .relay (hrelays ▸ hr) h
  | writer h => exact .writer (hwriter ▸ h)

/-- The writer makes no items. -/
theorem pending_writer (hs : WriterStep s s') (h : s'.Pending item) : s.Pending item := by
  cases h with
  | queued h =>
    cases hs
    case recv item' rest hpc hqueue =>
      exact .queued (hqueue ▸ List.mem_cons_of_mem _ h)
    all_goals exact .queued h
  | request h => cases hs <;> exact .request h
  | relay hr h => cases hs <;> exact .relay hr h
  | writer h =>
    cases hs
    case recv item' rest hpc hqueue =>
      cases h
      exact .queued (hqueue ▸ List.mem_cons_self)
    all_goals first
      | cases h
        done
      | cases h
        exact .writer (by simp [*, WriterPc.hand])

/-! ## 5. Generations -/

/-- Every generation in use was taken off the counter. -/
structure KnownInv (s : Server) : Prop where
  generations : ∀ c g, s.generations c = some g → g < s.nextGeneration
  sessions : ∀ c x, s.sessions c = some x → x.generation < s.nextGeneration
  request : ∀ g, s.request.generation = some g → g < s.nextGeneration
  opened : ∀ o ∈ s.opened, o.generation < s.nextGeneration
  relays : ∀ g r, s.relays g = some r → g < s.nextGeneration
  pending : ∀ item g, s.Pending item → item.generation = some g → g < s.nextGeneration

attribute [grind →] KnownInv.sessions KnownInv.request KnownInv.opened

theorem newSession_generation {pc : RequestPc} {o : Opened} (h : pc.newSession = some o) :
    pc.generation = some o.generation := by
  cases pc <;> cases h <;> rfl

theorem knownInv_step (h : KnownInv s) (hs : Step codec udpMtu idleMs s s') : KnownInv s' := by
  have hnext := nextGeneration_step hs
  cases hs with
  | request hs =>
    constructor
    case generations =>
      intro c g hg
      rcases generations_request hs hg with hg | ⟨k, hpc⟩
      · exact (h.generations c g hg).trans_le hnext
      · exact (h.request g (by rw [hpc]; rfl)).trans_le hnext
    case sessions =>
      intro c x hx
      rcases sessions_request hs hx with hx | hg
      · exact (h.sessions c x hx).trans_le hnext
      · exact (h.request _ hg).trans_le hnext
    case request => grind [generation_request hs]
    case opened =>
      rcases opened_request hs with e | ⟨r, g, dst, hpc, e, _⟩
      · grind
      · have hg := h.request g (by rw [hpc]; rfl)
        grind
    case relays =>
      intro g r hr
      rcases relays_request hs hr with hr | ⟨_, ho⟩
      · exact (h.relays g r hr).trans_le hnext
      · exact (h.request g (newSession_generation ho)).trans_le hnext
    case pending =>
      intro item g hp hg
      rcases pending_request hs hp with hp | ⟨c, rfl⟩ | ⟨c, g', rfl, hg', _⟩
      · exact (h.pending item g hp hg).trans_le hnext
      · cases hg
      · cases hg
        exact (h.request g hg').trans_le hnext
  | @relay g r _ hr hs =>
    have he := relayEffect hs
    constructor
    case generations => exact he.generations ▸ he.nextGeneration ▸ h.generations
    case sessions =>
      exact fun c x hx => (h.sessions c x (he.sessions c x hx)).trans_le hnext
    case request => exact he.request ▸ he.nextGeneration ▸ h.request
    case opened => exact he.opened ▸ he.nextGeneration ▸ h.opened
    case relays =>
      intro g' r' hr'
      by_cases hg : g' = g
      · exact (hg ▸ h.relays g r hr).trans_le hnext
      · exact (h.relays g' r' (he.others g' hg ▸ hr')).trans_le hnext
    case pending =>
      intro item g' hp hg
      rcases pending_relay hr he hp with hp | ⟨data, packet, _, _, rfl⟩
      · exact (h.pending item g' hp hg).trans_le hnext
      · cases hg
        exact (h.relays g r hr).trans_le hnext
  | writer hs =>
    have hp : ∀ item g, s'.Pending item → item.generation = some g → g < s.nextGeneration :=
      fun item g hp => h.pending item g (pending_writer hs hp)
    cases hs <;> exact ⟨h.generations, h.sessions, h.request, h.opened, h.relays, hp⟩
  | tick n =>
    refine ⟨h.generations, h.sessions, h.request, h.opened, h.relays, fun item g hp => ?_⟩
    exact h.pending item g (pending_congr hp rfl rfl rfl rfl)
  | otherClient =>
    exact ⟨fun c g hg => (h.generations c g hg).trans_le hnext,
      fun c x hx => (h.sessions c x hx).trans_le hnext,
      fun g hg => (h.request g hg).trans_le hnext,
      fun o ho => (h.opened o ho).trans_le hnext,
      fun g r hr => (h.relays g r hr).trans_le hnext,
      fun item g hp hg =>
        (h.pending item g (pending_congr hp rfl rfl rfl rfl) hg).trans_le hnext⟩

/-- What the request loop and the writer have made sure of about the current generations. -/
structure CurrentInv (s : Server) : Prop where
  request : ∀ c g, s.request.current = some (c, g) → s.generations c = some g
  dropping : ∀ c, s.request = .dropping c → s.generations c = none
  writing : ∀ item, s.writer = .writing item → item.current s.generations = true

theorem current_request (hs : RequestStep udpMtu s s') (h : s'.request.current = some (c, g)) :
    (s.request.current = some (c, g) ∧ s'.generations = s.generations) ∨
      s'.generations c = some g := by
  cases hs
  case packet _ packet => rw [(dispatch_spec udpMtu packet).2.2.1] at h; cases h
  case insert c' g' k hpc =>
    cases h
    exact Or.inr (Function.update_self ..)
  all_goals first
    | cases h
      done
    | cases h
      exact Or.inl ⟨by simp [*, RequestPc.current], rfl⟩

/-- Generations change under the lock only. -/
theorem generations_request_eq (hs : RequestStep udpMtu s s') :
    s'.generations = s.generations ∨ s.request.locks = true := by
  cases hs
  case insert hpc => rw [hpc]; exact Or.inr rfl
  case forget hpc => rw [hpc]; exact Or.inr rfl
  all_goals exact Or.inl rfl

theorem currentInv_step (hl : LockInv s) (h : CurrentInv s) (hs : Step codec udpMtu idleMs s s') :
    CurrentInv s' := by
  cases hs with
  | request hs =>
    refine ⟨fun c g hc => ?_, fun c hc => ?_, fun item hw => ?_⟩
    · rcases current_request hs hc with ⟨hc, e⟩ | hg
      · rw [e]
        exact h.request c g hc
      · exact hg
    · cases hs
      case packet _ packet => exact absurd hc ((dispatch_spec udpMtu packet).2.2.2.2.2.1 c)
      case forget c' hpc =>
        cases hc
        exact Function.update_self ..
      all_goals cases hc
    · have hw : s.writer = .writing item := by
        cases hs <;> exact hw
      rcases generations_request_eq hs with e | hlocks
      · rw [e]
        exact h.writing item hw
      · -- the writer holds the lock, so the request loop does not
        have h1 := hl.request.mpr hlocks
        have h2 := hl.writer.mpr (by rw [hw]; rfl)
        rw [h1] at h2
        cases h2
  | relay hr hs =>
    have he := relayEffect hs
    exact ⟨he.request ▸ he.generations ▸ h.request, he.request ▸ he.generations ▸ h.dropping,
      he.writer ▸ he.generations ▸ h.writing⟩
  | writer hs =>
    refine ⟨?_, ?_, fun item hw => ?_⟩
    · cases hs <;> exact h.request
    · cases hs <;> exact h.dropping
    · cases hs
      case current item' hpc hcurrent =>
        cases hw
        exact hcurrent
      all_goals cases hw
  | tick n => exact ⟨h.request, h.dropping, h.writing⟩
  | otherClient => exact ⟨h.request, h.dropping, h.writing⟩

/-! ## 6. Origins -/

/-- The last session that was opened for a connection. -/
def Server.lastOpened (s : Server) (c : UInt16) : Option Opened :=
  s.opened.find? (·.connId == c)

/-- Where an item comes from: a DATA packet is a datagram that the session of its generation
    received from its destination, and an item without a generation answers a keep-alive. -/
structure Genuine (s : Server) (item : OutboundItem) : Prop where
  data : item.packet.header.flags = .DATA → ∃ g dst, item.generation = some g ∧
    item.packet.address = some (.socketAddress dst) ∧ ⟨g, item.connId, dst⟩ ∈ s.opened ∧
    ⟨g, dst, item.packet.data⟩ ∈ s.received
  keepalive : item.generation = none → item.packet.header.flags = .KEEPALIVE

structure OriginInv (s : Server) : Prop where
  /-- No session has the generation the request loop has just taken, and no item either. -/
  unopened : ∀ g, s.request.unopened = some g →
    (∀ o ∈ s.opened, o.generation ≠ g) ∧ ∀ item, s.Pending item → item.generation ≠ some g
  last : ∀ o ∈ s.opened, s.generations o.connId = some o.generation →
    s.lastOpened o.connId = some o
  newSession : ∀ o, s.request.newSession = some o → o ∈ s.opened
  relays : ∀ g r, s.relays g = some r → ⟨g, r.connId, r.dst⟩ ∈ s.opened
  arrived : ∀ g r data, s.relays g = some r → r.pc = .arrived data →
    ⟨g, r.dst, data⟩ ∈ s.received
  genuine : ∀ item, s.Pending item → Genuine s item

theorem Genuine.mono (h : Genuine s item) (hopened : ∀ o ∈ s.opened, o ∈ s'.opened)
    (hreceived : ∀ d ∈ s.received, d ∈ s'.received) : Genuine s' item := by
  refine ⟨fun hf => ?_, h.keepalive⟩
  obtain ⟨g, dst, hg, haddr, ho, hd⟩ := h.data hf
  exact ⟨g, dst, hg, haddr, hopened _ ho, hreceived _ hd⟩

theorem genuine_keepaliveItem (c : UInt16) : Genuine s (keepaliveItem c) :=
  ⟨nofun, fun _ => rfl⟩

theorem genuine_errorItem (c : UInt16) (g : Nat) : Genuine s (errorItem c g) :=
  ⟨nofun, nofun⟩

/-- A response is an error packet, or has the datagram. -/
theorem response_some {dst : SocketAddr} {data : List UInt8} {packet : Packet}
    (h : response codec udpMtu c dst data = some packet) :
    packet = Packet.buildErrorPacket c ∨
      Packet.buildPacketFromAddress codec c (.socketAddress dst) data = .ok packet := by
  unfold response at h
  split at h
  · cases h
    exact .inl rfl
  · cases hbuild : Packet.buildPacketFromAddress codec c (.socketAddress dst) data with
    | error e =>
      rw [hbuild] at h
      cases h
    | ok p =>
      rw [hbuild] at h
      cases h
      exact .inr rfl

/-- The response to a datagram of the destination of a session is genuine. -/
theorem genuine_response {dst : SocketAddr} {data : List UInt8} {packet : Packet}
    (h : response codec udpMtu c dst data = some packet) (ho : ⟨g, c, dst⟩ ∈ s.opened)
    (hd : ⟨g, dst, data⟩ ∈ s.received) : Genuine s ⟨packet, some g⟩ := by
  rcases response_some h with rfl | hbuild
  · exact genuine_errorItem c g
  · obtain ⟨rfl, -⟩ := Packet.buildPacketFromAddress_ok.mp hbuild
    exact ⟨fun _ => ⟨g, dst, rfl, rfl, ho, hd⟩, nofun⟩

theorem unopened_request (hs : RequestStep udpMtu s s') (h : s'.request.unopened = some g) :
    s'.opened = s.opened ∧ (s.request.unopened = some g ∨ g = s.nextGeneration) := by
  cases hs
  case packet _ packet => rw [(dispatch_spec udpMtu packet).2.2.2.1] at h; cases h
  case lockReplace hpc hlock => cases h; exact ⟨rfl, Or.inr rfl⟩
  all_goals first
    | cases h
      done
    | cases h
      exact ⟨rfl, Or.inl (by simp [*, RequestPc.unopened])⟩

/-- A session with the current generation of its connection is the last one opened for it. -/
theorem last_request (hc : CurrentInv s) (h : OriginInv s) (hs : RequestStep udpMtu s s')
    {o : Opened} (ho : o ∈ s'.opened) (hg : s'.generations o.connId = some o.generation) :
    s'.lastOpened o.connId = some o := by
  rcases opened_request hs with e | ⟨r, g, dst, hpc, e, _, hgen⟩
  · rw [e] at ho
    rw [lastOpened, e]
    rcases generations_request hs hg with hg | ⟨k, hpc⟩
    · exact h.last o ho hg
    · exact absurd rfl ((h.unopened o.generation (by rw [hpc]; rfl)).1 o ho)
  · have hcurrent : s.generations r.connId = some g := hc.request r.connId g (by rw [hpc]; rfl)
    rw [hgen] at hg
    rw [e] at ho
    rw [lastOpened, e]
    rcases List.mem_cons.mp ho with rfl | ho
    · exact List.find?_cons_of_pos (beq_self_eq_true _)
    · -- an older session of the same connection does not have the current generation
      have hne : r.connId ≠ o.connId := by
        intro he
        rw [← he, hcurrent] at hg
        exact (h.unopened g (by rw [hpc]; rfl)).1 o ho (Option.some.inj hg).symm
      rw [List.find?_cons_of_neg (by simpa using hne)]
      exact h.last o ho hg

theorem newSession_request (hs : RequestStep udpMtu s s') {o : Opened}
    (h : s'.request.newSession = some o) :
    o ∈ s'.opened ∨ (s.request.newSession = some o ∧ s'.opened = s.opened) := by
  cases hs
  case packet _ packet => rw [(dispatch_spec udpMtu packet).2.2.2.2.1] at h; cases h
  case bind r g dst hpc =>
    cases h
    exact Or.inl List.mem_cons_self
  all_goals first
    | cases h
      done
    | cases h
      exact Or.inr ⟨by simp [*, RequestPc.newSession], rfl⟩

theorem received_request (hs : RequestStep udpMtu s s') : s'.received = s.received := by
  cases hs <;> rfl

theorem originInv_request (hk : KnownInv s) (hc : CurrentInv s) (h : OriginInv s)
    (hs : RequestStep udpMtu s s') : OriginInv s' := by
  have hopened : ∀ o ∈ s.opened, o ∈ s'.opened := by grind [opened_request hs]
  have hreceived := received_request hs
  refine ⟨fun g hg => ?_, fun o ho hg => last_request hc h hs ho hg, fun o ho => ?_,
    fun g r hr => ?_, fun g r data hr hdata => ?_, fun item hp => ?_⟩
  · obtain ⟨e, hg'⟩ := unopened_request hs hg
    rw [e]
    -- a generation off the counter is new to sessions and items
    have hfresh : (∀ o ∈ s.opened, o.generation ≠ g) ∧
        ∀ item, s.Pending item → item.generation ≠ some g := by
      rcases hg' with hg' | rfl
      · exact h.unopened g hg'
      · exact ⟨fun o ho e => (e ▸ hk.opened o ho).false,
          fun item hp e => (hk.pending item _ hp e).false⟩
    refine ⟨hfresh.1, fun item hp => ?_⟩
    rcases pending_request hs hp with hp | ⟨c, rfl⟩ | ⟨c, g', rfl, _, hpc⟩
    · exact hfresh.2 item hp
    · exact nofun
    · rw [hpc] at hg
      cases hg
  · grind [newSession_request hs, h.newSession]
  · grind [relays_request hs, h.relays, h.newSession]
  · grind [relays_request hs, h.arrived]
  · rcases pending_request hs hp with hp | ⟨c, rfl⟩ | ⟨c, g, rfl, _⟩
    · exact (h.genuine item hp).mono hopened fun _ hd => hreceived ▸ hd
    · exact genuine_keepaliveItem c
    · exact genuine_errorItem c g

theorem originInv_relay (h : OriginInv s) {r : Relay} (hr : s.relays g = some r)
    (hs : RelayEffect codec udpMtu g r s s') : OriginInv s' := by
  have hown := h.relays g r hr
  constructor
  case unopened =>
    intro g' hg
    rw [hs.request] at hg
    rw [hs.opened]
    refine ⟨(h.unopened g' hg).1, fun item hp => ?_⟩
    rcases pending_relay hr hs hp with hp | ⟨data, packet, _, _, rfl⟩
    · exact (h.unopened g' hg).2 item hp
    · intro e
      cases e
      exact (h.unopened g hg).1 _ hown rfl
  case last =>
    unfold lastOpened
    rw [hs.opened, hs.generations]
    exact h.last
  case newSession => grind [h.newSession, hs.request, hs.opened]
  case relays => grind [h.relays, hs.opened, hs.own, hs.others]
  case arrived =>
    intro g' r' data hr' hdata
    by_cases hg : g' = g
    · subst hg
      obtain ⟨_, hdst, harrived, _⟩ := hs.own r' hr'
      exact hdst ▸ harrived data hdata
    · exact hs.received _ (h.arrived g' r' data (hs.others g' hg ▸ hr') hdata)
  case genuine =>
    intro item hp
    rcases pending_relay hr hs hp with hp | ⟨data, packet, hpc, hpacket, rfl⟩
    · exact (h.genuine item hp).mono (fun _ ho => hs.opened ▸ ho) hs.received
    · exact genuine_response hpacket (hs.opened ▸ hown)
        (hs.received _ (h.arrived g r data hr hpc))

/-- The other steps change nothing that origins depend on. -/
theorem originInv_quiet (h : OriginInv s) (hrequest : s'.request = s.request)
    (hgenerations : s'.generations = s.generations) (hrelays : s'.relays = s.relays)
    (hopened : s'.opened = s.opened) (hreceived : s'.received = s.received)
    (hpending : ∀ item, s'.Pending item → s.Pending item) : OriginInv s' := by
  constructor
  case unopened => grind [h.unopened]
  case last =>
    unfold lastOpened
    rw [hopened, hgenerations]
    exact h.last
  case newSession => grind [h.newSession]
  case relays => grind [h.relays]
  case arrived => grind [h.arrived]
  case genuine =>
    exact fun item hp => (h.genuine item (hpending item hp)).mono (fun _ ho => hopened ▸ ho)
      fun _ hd => hreceived ▸ hd

theorem originInv_step (hk : KnownInv s) (hc : CurrentInv s) (h : OriginInv s)
    (hs : Step codec udpMtu idleMs s s') : OriginInv s' := by
  cases hs with
  | request hs => exact originInv_request hk hc h hs
  | relay hr hs => exact originInv_relay h hr (relayEffect hs)
  | writer hs =>
    have hpending : ∀ item, s'.Pending item → s.Pending item := fun item => pending_writer hs
    cases hs <;> exact originInv_quiet h rfl rfl rfl rfl rfl hpending
  | tick n =>
    exact originInv_quiet h rfl rfl rfl rfl rfl fun _ hp => pending_congr hp rfl rfl rfl rfl
  | otherClient =>
    exact originInv_quiet h rfl rfl rfl rfl rfl fun _ hp => pending_congr hp rfl rfl rfl rfl

/-! ## 7. Runs -/

structure Inv (s : Server) : Prop where
  lock : LockInv s
  known : KnownInv s
  current : CurrentInv s
  origin : OriginInv s

theorem inv_step (h : Inv s) (hs : Step codec udpMtu idleMs s s') : Inv s' :=
  ⟨lockInv_step h.lock hs, knownInv_step h.known hs, currentInv_step h.lock h.current hs,
    originInv_step h.known h.current h.origin hs⟩

theorem not_pending_new {n : Nat} : ¬ (Server.new n).Pending item := by
  rintro (h | h | ⟨hr, -⟩ | h)
  all_goals contradiction

theorem inv_new (n : Nat) : Inv (.new n) where
  lock := by constructor <;> simp [Server.new, RequestPc.locks, WriterPc.locks]
  known := ⟨nofun, nofun, nofun, nofun, nofun, fun _ _ hp => absurd hp not_pending_new⟩
  current := ⟨nofun, nofun, nofun⟩
  origin := ⟨nofun, nofun, nofun, nofun, nofun, fun _ hp => absurd hp not_pending_new⟩

theorem inv_reachable (h : Reachable codec udpMtu idleMs s) : Inv s := by
  induction h with
  | new n => exact inv_new n
  | step _ hs ih => exact inv_step ih hs

/-- A generation that was retired for a connection, for good. -/
structure Retired (c : UInt16) (g : Nat) (s : Server) : Prop where
  known : g < s.nextGeneration
  notCurrent : s.generations c ≠ some g
  notInserting : ∀ k, s.request ≠ .inserting c g k

theorem inserting_request (hs : RequestStep udpMtu s s') {k : AfterReplace}
    (h : s'.request = .inserting c g k) : g = s.nextGeneration := by
  cases hs
  case packet _ packet =>
    have hd := (dispatch_spec udpMtu packet).2.1
    rw [show dispatch udpMtu packet = _ from h] at hd
    cases hd
  all_goals cases h
  rfl

theorem retired_step (h : Retired c g s) (hs : Step codec udpMtu idleMs s s') : Retired c g s' := by
  have hknown := h.known.trans_le (nextGeneration_step hs)
  cases hs with
  | request hs =>
    refine ⟨hknown, fun hg => ?_, fun k hpc => ?_⟩
    · rcases generations_request hs hg with hg | ⟨k, hpc⟩
      · exact h.notCurrent hg
      · exact h.notInserting k hpc
    · exact absurd (inserting_request hs hpc) h.known.ne
  | relay hr hs =>
    have he := relayEffect hs
    exact ⟨hknown, he.generations ▸ h.notCurrent, he.request ▸ h.notInserting⟩
  | writer hs => cases hs <;> exact ⟨hknown, h.notCurrent, h.notInserting⟩
  | tick n => exact ⟨hknown, h.notCurrent, h.notInserting⟩
  | otherClient => exact ⟨hknown, h.notCurrent, h.notInserting⟩

/-- Once `replace_generation` or `close_session` completes for a connection, every generation that
    an item of it has is retired. -/
theorem retired_of_retiring (h : Inv s) (hpc : s.request.retiring = some c)
    (hs : RequestStep udpMtu s s') (hp : s.Pending item) (hg : item.generation = some g) :
    Retired c g s' := by
  have hknown := h.known.pending item g hp hg
  -- the last step of either function leaves the generations and the counter alone
  cases hs with
  | replaced hpc' | switched hpc' =>
    rw [hpc'] at hpc
    cases hpc
    have hcurrent := h.current.request c _ (by rw [hpc']; rfl)
    have hfresh := (h.origin.unopened _ (by rw [hpc']; rfl)).2 item hp
    exact ⟨hknown, fun e => hfresh (hg.trans (e.symm.trans hcurrent)), nofun⟩
  | @drop c' hpc' =>
    rw [hpc'] at hpc
    cases hpc
    have hnone := h.current.dropping c hpc'
    exact ⟨hknown, fun e => (nomatch hnone.symm.trans e), nofun⟩
  | _ =>
    simp [*, RequestPc.retiring] at hpc

/-- Frames leave through the writer only. -/
theorem written_step (hs : Step codec udpMtu idleMs s s') :
    s'.written = s.written ∨
      ∃ item, s.writer = .writing item ∧ s'.written = s.written ++ [item] := by
  cases hs with
  | request hs => cases hs <;> exact Or.inl rfl
  | relay hr hs => exact Or.inl (relayEffect hs).written
  | writer hs =>
    cases hs
    case write item hpc => exact Or.inr ⟨item, hpc, rfl⟩
    all_goals exact Or.inl rfl
  | tick n => exact Or.inl rfl
  | otherClient => exact Or.inl rfl

/-- Sessions that were opened and datagrams that were received stay so. -/
theorem history_step (hs : Step codec udpMtu idleMs s s') :
    (∀ o ∈ s.opened, o ∈ s'.opened) ∧ ∀ d ∈ s.received, d ∈ s'.received := by
  cases hs with
  | request hs =>
    exact ⟨by grind [opened_request hs], fun d hd => received_request hs ▸ hd⟩
  | relay hr hs =>
    have he := relayEffect hs
    exact ⟨fun o ho => he.opened ▸ ho, he.received⟩
  | writer hs => cases hs <;> exact ⟨fun _ ho => ho, fun _ hd => hd⟩
  | tick n => exact ⟨fun _ ho => ho, fun _ hd => hd⟩
  | otherClient => exact ⟨fun _ ho => ho, fun _ hd => hd⟩

/-- While a frame of a generation is written, the generation is the current one. -/
theorem current_of_writing (h : Inv s) (hw : s.writer = .writing item)
    (hg : item.generation = some g) : s.generations item.connId = some g := by
  have hcurrent := h.current.writing item hw
  unfold OutboundItem.current at hcurrent
  rw [hg] at hcurrent
  exact eq_of_beq hcurrent

/-- An item of a retired generation is not written any more. -/
theorem retired_run (h : Inv s) (hd : Retired c g s)
    (hs : Relation.ReflTransGen (Step codec udpMtu idleMs) s s') :
    Inv s' ∧ Retired c g s' ∧ ∃ later, s'.written = s.written ++ later ∧
      ∀ item ∈ later, item.connId = c → item.generation ≠ some g := by
  induction hs with
  | refl => exact ⟨h, hd, [], (List.append_nil _).symm, nofun⟩
  | tail _ hs ih =>
    obtain ⟨h, hd, later, hwritten, hlater⟩ := ih
    refine ⟨inv_step h hs, retired_step hd hs, ?_⟩
    rcases written_step hs with e | ⟨item, hw, e⟩
    · exact ⟨later, e.trans hwritten, hlater⟩
    · refine ⟨later ++ [item], by rw [e, hwritten, List.append_assoc], ?_⟩
      have hcurrent := current_of_writing (g := g) h hw
      grind [hd.notCurrent]

/-- **No stale delivery.** In every run of the request loop, the relay tasks and the writer:

    * a frame that carries a generation is written while that generation is the current one of
      its connection, and a DATA frame then has a payload that came from the destination of the
      session opened last for the connection;
    * nothing else gets to the client;
    * once `replace_generation` or `close_session` completes for a connection, no data or error
      item that was pending for it before is ever written. -/
theorem no_stale_delivery (h : Reachable codec udpMtu idleMs s) :
    (∀ item g, s.writer = .writing item → item.generation = some g →
      s.generations item.connId = some g ∧
      (item.packet.header.flags = .DATA → ∃ dst,
        s.lastOpened item.connId = some ⟨g, item.connId, dst⟩ ∧
        item.packet.address = some (.socketAddress dst) ∧
        ⟨g, dst, item.packet.data⟩ ∈ s.received)) ∧
    (∀ s', Step codec udpMtu idleMs s s' → s'.written = s.written ∨
      ∃ item, s.writer = .writing item ∧ s'.written = s.written ++ [item]) ∧
    ∀ c s', s.request.retiring = some c → RequestStep udpMtu s s' →
      ∀ item, s.Pending item → item.connId = c → item.packet.header.flags ≠ .KEEPALIVE →
      ∀ s'', Relation.ReflTransGen (Step codec udpMtu idleMs) s' s'' →
        ∃ later, s''.written = s'.written ++ later ∧ item ∉ later := by
  have hinv := inv_reachable h
  refine ⟨fun item g hw hg => ?_, fun s' hs => written_step hs,
    fun c s' hpc hs item hp hc hf s'' hrun => ?_⟩
  · have hcurrent := current_of_writing hinv hw hg
    refine ⟨hcurrent, fun hf => ?_⟩
    have hgenuine := hinv.origin.genuine item (.writer (by rw [hw]; rfl))
    obtain ⟨g', dst, hg', haddr, ho, hd⟩ := hgenuine.data hf
    cases hg.symm.trans hg'
    exact ⟨dst, hinv.origin.last _ ho hcurrent, haddr, hd⟩
  · cases hg : item.generation with
    | none => exact absurd ((hinv.origin.genuine item hp).keepalive hg) hf
    | some g =>
      have hd := retired_of_retiring hinv hpc hs hp hg
      have hinv' := inv_reachable (h.step (.request hs))
      obtain ⟨_, _, later, hwritten, hlater⟩ := retired_run hinv' hd hrun
      exact ⟨later, hwritten, fun hm => hlater item hm hc hg⟩

end Steps

/-- The destination of the sample session. -/
def sampleDst : SocketAddr := .v4 0xCB007109#32 51820

/-- The response to a datagram of the sample session. -/
def sampleItem : OutboundItem :=
  ⟨⟨⟨.DATA, 8⟩, some (.socketAddress sampleDst), [104, 105]⟩, some 0⟩

/-- The first request of the sample session. -/
def sampleRequest : Packet := ⟨⟨.DATA, 8⟩, some (.socketAddress sampleDst), [63]⟩

/-- A run up to a DATA frame: the first request of a connection, its session, and a reply. -/
theorem sample_writing :
    ∃ s, Reachable socks5Address 1500 30000 s ∧ s.writer = .writing sampleItem := by
  have h : Reachable socks5Address 1500 30000 _ := .new 0
  have h := h.step (.request (.packet rfl sampleRequest))
  have h := h.step (.request (.miss (r := ⟨8, .socketAddress sampleDst⟩) rfl nofun))
  have h := h.step (.request (.lockReplace rfl rfl))
  have h := h.step (.request (.insert rfl))
  have h := h.step (.request (.switched rfl))
  have h := h.step (.request (.resolve rfl sampleDst))
  have h := h.step (.request (.lockOpen rfl rfl))
  have h := h.step (.request (.bind rfl))
  have h := h.step (.request (.sent rfl))
  have h := h.step (.request (.spawn rfl))
  have h := h.step (.relay (g := 0) rfl (.receive rfl [104, 105]))
  have h := h.step (.relay (g := 0) rfl (.relay rfl rfl rfl))
  have h := h.step (.relay (g := 0) rfl (.queue rfl (by decide)))
  have h := h.step (.writer (.recv rfl rfl))
  have h := h.step (.writer (.lock rfl rfl))
  have h := h.step (.writer (.current rfl rfl))
  exact ⟨_, h, rfl⟩

theorem sample_no_stale_delivery :
    ∃ s, Reachable socks5Address 1500 30000 s ∧ s.writer = .writing sampleItem ∧
      s.generations 8 = some 0 ∧ s.lastOpened 8 = some ⟨0, 8, sampleDst⟩ ∧
      ⟨0, sampleDst, [104, 105]⟩ ∈ s.received := by
  obtain ⟨s, h, hw⟩ := sample_writing
  obtain ⟨hcurrent, hdata⟩ := (no_stale_delivery h).1 sampleItem 0 hw rfl
  obtain ⟨dst, hlast, haddr, hreceived⟩ := hdata rfl
  cases haddr
  exact ⟨s, h, hw, hcurrent, hlast, hreceived⟩

end Tun2Proxy.Udpgw
