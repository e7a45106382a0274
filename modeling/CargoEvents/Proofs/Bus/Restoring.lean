import CargoEvents.Proofs.Broker.Standing
import CargoEvents.Proofs.Bus.Bindings

/-! # Restoring a topology

Restoring declares the topology once more, part by part, and then binds every registered kind.
Each of these calls leaves all that is there as it is, and adds its own part if it is missing: so
a restoration that stops anywhere has done no damage, and one that returns has left nothing out.
-/
namespace CargoEvents
open Broker (Preserves)

/-- The topology is there as it is declared, with the queue bound under these keys. -/
structure Broker.Stands (b : Broker) (τ : Topology) (keys : List String) : Prop where
  exchange : b.exchanges.get? τ.exchange.name = some τ.exchange
  queue : b.queue? τ.queue.name = some τ.queue
  bindings : ∀ key ∈ keys, τ.binding key ∈ b.bindings

theorem Broker.Stands.setLimit {b : Broker} {τ : Topology} {keys : List String} (h : b.Stands τ keys)
    (n limit : Nat) : (b.setLimit n limit).Stands τ keys := ⟨h.exchange, h.queue, h.bindings⟩

namespace Network
variable {H : Type} {s t : Network H} {i n : Nat} {bus : Bus H} {r : Request H}
  {τ : Topology} {keys : List String} {b b' : Broker} {d : Declaration}

/-! ## One declaration -/

/-- This part of the topology is there; the last is the limit of session `n`. -/
def Declaration.Holds (τ : Topology) (n : Nat) (b : Broker) : Declaration → Prop
  | exchange => b.exchanges.get? τ.exchange.name = some τ.exchange
  | queue => b.queue? τ.queue.name = some τ.queue
  | qos => b.limit? n = some τ.qos.prefetchCount.toNat

theorem Declaration.preserves (τ : Topology) (n : Nat) (b : Broker) (d : Declaration) :
    Preserves n b (b.act (d.action τ n)) := by
  cases d with
  | exchange => exact b.preserves_declareExchange n τ.exchange
  | queue => exact b.preserves_declareQueue n τ.queue
  | qos => exact b.preserves_setQos n τ.qos

theorem Declaration.Holds.act (h : d.Holds τ n b) {a : Broker.Action}
    (hqueue : a ≠ .operate (.deleteQueue τ.queue.name)) (hqos : ∀ qos, a = .setQos n qos → qos = τ.qos) :
    d.Holds τ n (b.act a) := by
  cases d with
  | exchange => exact Broker.exchange_act h a
  | queue => exact Broker.queue?_act h hqueue
  | qos => exact Broker.limit?_act h fun qos ha => by rw [hqos qos ha]

theorem Declaration.Holds.run (h : d.Holds τ n b) {actions : List Broker.Action}
    (hqueue : ∀ a ∈ actions, a ≠ .operate (.deleteQueue τ.queue.name))
    (hqos : ∀ a ∈ actions, ∀ qos, a = .setQos n qos → qos = τ.qos) :
    d.Holds τ n (b.run actions) := by
  induction actions generalizing b with
  | nil => exact h
  | cons a actions ih =>
    obtain ⟨hqueue, hqueues⟩ := List.forall_mem_cons.mp hqueue
    obtain ⟨hqos, hqoss⟩ := List.forall_mem_cons.mp hqos
    exact ih (h.act hqueue hqos) hqueues hqoss

theorem Declaration.Holds.declared (h : d.Holds τ n b) (other : Declaration) :
    d.Holds τ n (b.act (other.action τ n)) := by
  refine h.act ?_ fun qos ha => ?_
  · cases other <;> nofun
  · cases other with
    | qos =>
      cases ha
      rfl
    | exchange | queue => cases ha

theorem Declaration.Holds.bound (h : d.Holds τ n b) (bindings : List Broker.Binding) :
    d.Holds τ n { b with bindings } := by
  cases d <;> exact h

/-- A declaration that returns has left its part there; one that fails has left the broker alone. -/
theorem Declaration.call_broker (hb : s.buses[i]? = some bus) (τ : Topology) (d : Declaration) :
    ((d.call i τ s).1 = .ok () ∧ d.Holds τ bus.session (d.call i τ s).2.broker ∧
      (d.call i τ s).2.broker = s.broker.act (d.action τ bus.session)) ∨
    ∃ e, (d.call i τ s).1 = .error e ∧ (d.call i τ s).2.broker = s.broker := by
  cases hresult : (d.call i τ s).1 with
  | ok u =>
    refine .inl ⟨rfl, ?_⟩
    cases d <;> obtain ⟨bus', hb', hop⟩ := onSession'_ok hresult <;>
      obtain rfl : bus = bus' := Option.some.inj (hb.symm.trans hb')
    · exact ⟨Broker.exchange_of_ok hop, act_of_ok hop⟩
    · exact ⟨Broker.queue?_of_ok hop, act_of_ok hop⟩
    · exact ⟨Broker.limit?_of_ok hop, act_of_ok hop⟩
  | error e =>
    refine .inr ⟨e, rfl, ?_⟩
    cases d <;> exact onSession'_error hresult

/-! ## One step -/

/-- A step of a caller that restores `τ` over session `n` and finds handlers for `keys`. -/
inductive Restores (τ : Topology) (n : Nat) (keys : List String) :
    Phase (.restore : Request H) → Broker → Phase (.restore : Request H) → Broker → Prop
  | admitted {b : Broker} : Restores τ n keys .asking b (.declaring τ [.exchange, .queue, .qos]) b
  | declared {τ' : Topology} {d : Declaration} {left : List Declaration} {b b' : Broker}
      (hd : d.Holds τ' n b') (hb : b' = b.act (d.action τ' n)) :
      Restores τ n keys (.declaring τ' (d :: left)) b (.declaring τ' left) b'
  | recalled {τ' : Topology} {b : Broker} :
      Restores τ n keys (.declaring τ' []) b (.rebinding τ' keys) b
  | rebound {τ' : Topology} {key : String} {left : List String} {b b' : Broker}
      (hb : b' = { b with bindings := b.bindings.insert (τ'.binding key) }) :
      Restores τ n keys (.rebinding τ' (key :: left)) b (.rebinding τ' left) b'
  | restored {τ' : Topology} {b : Broker} :
      Restores τ n keys (.rebinding τ' []) b (.returned (.ok ())) b
  | failed (p : Phase (.restore : Request H)) {e : BusError} {b b' : Broker} (hb : b' = b) :
      Restores τ n keys p b (.returned (.error e)) b'
  | returned {result : Except BusError Unit} {b : Broker} :
      Restores τ n keys (.returned result) b (.returned result) b
  | gone {b : Broker} : Restores τ n keys .gone b .gone b

theorem proceed_restores (hb : s.buses[i]? = some bus) (p : Phase (.restore : Request H)) :
    Restores bus.config.topology bus.session bus.registry.routingKeys p s.broker
      (.after (p.proceed i s).1) (p.proceed i s).2.broker := by
  cases p with
  | asking =>
    let look (bus : Bus H) : Call BusError (Network H) (Phase (.restore : Request H)) :=
      pure (.declaring bus.config.topology [.exchange, .queue, .qos])
    change Restores _ _ _ .asking _ (.after (whileOpen i look s).1) (whileOpen i look s).2.broker
    rcases whileOpen_cases look s i with h | ⟨bus', hb', -, h⟩
    · rw [h]
      exact .failed _ rfl
    · obtain rfl : bus = bus' := Option.some.inj (hb.symm.trans hb')
      rw [h]
      exact .admitted
  | declaring τ left =>
    cases left with
    | nil =>
      rw [Phase.proceed, Phase.proceed.recalling, hb]
      exact .recalled
    | cons d left =>
      have hcall := d.call_broker hb τ
      rw [Phase.proceed, Call.bind_apply, Call.adapt_apply]
      generalize d.call i τ s = called at hcall ⊢
      obtain ⟨result, t⟩ := called
      rcases hcall with ⟨rfl, hd, hact⟩ | ⟨e, rfl, hsame⟩
      · exact .declared hd hact
      · exact .failed _ hsame
  | rebinding τ left =>
    cases left with
    | nil => exact .restored
    | cons key left =>
      have hbind := bind_broker i τ key s
      rw [Phase.proceed, Call.bind_apply]
      generalize (calls i).bind τ key s = bound at hbind ⊢
      obtain ⟨result, t⟩ := bound
      rcases hbind with ⟨rfl, hadded⟩ | ⟨e, rfl, hsame⟩
      · exact .rebound hadded
      · exact .failed _ hsame
  | returned => exact .returned
  | gone => exact .gone

theorem restoring_called (i : Nat) (p : Phase (.restore : Request H)) (s : Network H) :
    s.Called (p.proceed i s).2 := by
  cases p with
  | asking =>
    rw [Phase.proceed, whileOpen_pure]
    exact .refl s
  | declaring τ left =>
    cases left with
    | nil => exact .refl s
    | cons d left =>
      rw [Phase.proceed, bind_pure_snd]
      exact (declaration_called τ d).adapt _ s
  | rebinding τ left =>
    cases left with
    | nil => exact .refl s
    | cons key left =>
      rw [Phase.proceed, bind_pure_snd]
      exact bind_called ..
  | returned | gone => exact .refl s

theorem Taken.restores {P : Phase (.restore : Request H) → Broker → Prop}
    {p q : Phase (.restore : Request H)} (h : Taken i p s q t)
    (hb : ∃ faults, s.buses[i]? = some { bus with faults })
    (hstep : ∀ p b q b', Restores bus.config.topology bus.session bus.registry.routingKeys p b q b' →
      P p b → P q b')
    (hp : P p s.broker) : P q t.broker ∧ ∃ faults, t.buses[i]? = some { bus with faults } := by
  induction h with
  | here => exact ⟨hp, hb⟩
  | @step p q s t _ ih =>
    obtain ⟨faults, hb⟩ := hb
    obtain ⟨faults', hf, -⟩ := (restoring_called i p s).buses i
    rw [hb] at hf
    exact ih ⟨faults', hf⟩ (hstep _ _ _ _ (proceed_restores hb p) hp)

/-! ## What steps keep -/

variable {p q : Phase (.restore : Request H)}

theorem Restores.preserves (h : Restores τ n keys p b q b') : Preserves n b b' := by
  cases h with
  | declared hd hb => exact hb ▸ Declaration.preserves ..
  | rebound hb =>
    subst hb
    exact ⟨fun _ _ h => h, fun _ _ h => h, fun _ h => List.mem_insert_of_mem h, fun _ _ h => .inl h,
      rfl⟩
  | failed p hb => exact hb ▸ .refl n _
  | admitted | recalled | restored | returned | gone => exact .refl n b

/-- What a caller that restores `τ` has seen to. -/
def SeenTo (τ : Topology) (n : Nat) (keys : List String) (b : Broker) :
    Phase (.restore : Request H) → Prop
  | .declaring τ' left => τ' = τ ∧ ∀ d : Declaration, d ∈ left ∨ d.Holds τ n b
  | .rebinding τ' left => τ' = τ ∧ (∀ d : Declaration, d.Holds τ n b) ∧
    ∀ key ∈ keys, key ∈ left ∨ τ.binding key ∈ b.bindings
  | .returned (.ok _) => (∀ d : Declaration, d.Holds τ n b) ∧ ∀ key ∈ keys, τ.binding key ∈ b.bindings
  | _ => True

theorem Restores.seenTo {known : List String} (h : Restores τ n known p b q b') (hkeys : keys ⊆ known)
    (hp : SeenTo τ n keys b p) : SeenTo τ n keys b' q := by
  cases h with
  | admitted => exact ⟨rfl, fun d => by cases d <;> simp⟩
  | @declared τ' d left b b' hd hb =>
    obtain ⟨rfl, hdone⟩ := hp
    refine ⟨rfl, fun other => ?_⟩
    rcases hdone other with hleft | hheld
    · rcases List.mem_cons.mp hleft with rfl | hleft
      · exact .inr hd
      · exact .inl hleft
    · exact .inr (hb ▸ hheld.declared d)
  | recalled =>
    obtain ⟨rfl, hdone⟩ := hp
    exact ⟨rfl, fun d => (hdone d).resolve_left List.not_mem_nil, fun key hkey => .inl (hkeys hkey)⟩
  | @rebound τ' key left b b' hb =>
    obtain ⟨rfl, hdone, hbound⟩ := hp
    subst hb
    refine ⟨rfl, fun d => ?_, fun other hother => ?_⟩
    · exact (hdone d).bound _
    · rcases hbound other hother with hleft | hin
      · rcases List.mem_cons.mp hleft with rfl | hleft
        · exact .inr List.mem_insert_self
        · exact .inl hleft
      · exact .inr (List.mem_insert_of_mem hin)
  | restored =>
    obtain ⟨rfl, hdone, hbound⟩ := hp
    exact ⟨hdone, fun key hkey => (hbound key hkey).resolve_left List.not_mem_nil⟩
  | failed | gone => trivial
  | returned => exact hp

theorem SeenTo.run (h : SeenTo τ n keys b p) {actions : List Broker.Action}
    (hqueue : ∀ a ∈ actions, a ≠ .operate (.deleteQueue τ.queue.name))
    (hqos : ∀ a ∈ actions, ∀ qos, a = .setQos n qos → qos = τ.qos) :
    SeenTo τ n keys (b.run actions) p := by
  have hholds (d : Declaration) (hd : d.Holds τ n b) : d.Holds τ n (b.run actions) :=
    hd.run hqueue hqos
  have hbinding (key : String) (hkey : τ.binding key ∈ b.bindings) :
      τ.binding key ∈ (b.run actions).bindings := Broker.mem_bindings_run hkey hqueue
  cases p with
  | asking | gone => trivial
  | declaring τ' left => exact h.imp_right fun hdone d => (hdone d).imp_right (hholds d)
  | rebinding τ' left =>
    obtain ⟨hτ, hdone, hbound⟩ := h
    exact ⟨hτ, fun d => hholds d (hdone d), fun key hkey => (hbound key hkey).imp_right (hbinding key)⟩
  | returned result =>
    cases result with
    | ok => exact ⟨fun d => hholds d (h.1 d), fun key hkey => hbinding key (h.2 key hkey)⟩
    | error => trivial

/-- A caller of `τ` that has nothing left to do but what was done before. -/
def Idle (τ : Topology) (keys : List String) : Phase (.restore : Request H) → Prop
  | .declaring τ' _ => τ' = τ
  | .rebinding τ' left => τ' = τ ∧ left ⊆ keys
  | _ => True

theorem Restores.idle (h : Restores τ n keys p b q b') (hp : Idle τ keys p) (hb : b.Stands τ keys) :
    Idle τ keys q ∧ (b' = b ∨ b' = b.setLimit n τ.qos.prefetchCount.toNat) := by
  cases h with
  | admitted => exact ⟨rfl, .inl rfl⟩
  | @declared τ' d left b b' hd hact =>
    obtain rfl : τ' = τ := hp
    refine ⟨rfl, ?_⟩
    rw [hact]
    cases d with
    | exchange => exact .inl (Broker.declareExchange_idle hb.exchange n)
    | queue => exact .inl (Broker.declareQueue_idle hb.queue n)
    | qos => exact b.setQos_sets n τ'.qos
  | recalled => exact ⟨⟨hp, fun _ h => h⟩, .inl rfl⟩
  | @rebound τ' key left b b' hadded =>
    obtain ⟨rfl, hleft⟩ := hp
    obtain ⟨hkey, hleft⟩ := List.cons_subset.mp hleft
    refine ⟨⟨rfl, hleft⟩, .inl ?_⟩
    rw [hadded, List.insert_of_mem (hb.bindings key hkey)]
  | restored | returned | gone => exact ⟨trivial, .inl rfl⟩
  | failed p hsame => exact ⟨trivial, .inl hsame⟩

theorem SeenTo.stands {result : Except BusError Unit}
    (h : SeenTo τ n keys b (.returned result : Phase (.restore : Request H))) (hok : result = .ok ()) :
    b.Stands τ keys ∧ b.limit? n = some τ.qos.prefetchCount.toNat := by
  subst hok
  obtain ⟨hheld, hbound⟩ := h
  exact ⟨⟨hheld .exchange, hheld .queue, hbound⟩, hheld .qos⟩

/-! ## A restoration that nobody comes between -/

theorem restore_idle (hb : s.buses[i]? = some bus)
    (h : s.broker.Stands bus.config.topology bus.registry.routingKeys) :
    (restore i s).2.broker = s.broker ∨
      (restore i s).2.broker = s.broker.setLimit bus.session 1 := by
  let P (p : Phase (.restore : Request H)) (b : Broker) : Prop :=
    Idle bus.config.topology bus.registry.routingKeys p ∧
      (b = s.broker ∨ b = s.broker.setLimit bus.session 1)
  have hfirst : P .asking s.broker := ⟨trivial, .inl rfl⟩
  refine (Taken.restores (P := P) (restore_taken s) ⟨bus.faults, hb⟩ ?_ hfirst).1.2
  rintro p _ q b' hstep ⟨hp, rfl | rfl⟩
  · exact hstep.idle hp h
  · obtain ⟨hq, hb'⟩ := hstep.idle hp (h.setLimit bus.session 1)
    exact ⟨hq, .inr (hb'.elim id fun hb' => hb'.trans (s.broker.setLimit_setLimit bus.session 1))⟩

/-! ## Declarations of others -/

/-- Who declares a topology declares one that lets a session have one delivery at a time. -/
def Phase.Modest : {r : Request H} → Phase r → Prop
  | .restore, declaring τ _ => τ.qos = {}
  | _, _ => True

end Network

namespace Floor
open Network
variable {H : Type} {f : Floor H} {c i : Nat} {bus : Bus H}
  {τ : Topology} {n : Nat} {keys : List String}

def Modest (f : Floor H) : Prop := ∀ (c : Nat) (x : Caller H), f.callers[c]? = some x → x.phase.Modest

theorem Modest.happen (hmodest : f.Modest) (h : f.Sound) (x : Happening H) : (f.happen x).Modest := by
  intro d y hy
  rcases caller_before hy with ⟨i, r, rfl | rfl⟩ | hsame | ⟨i, r, p, hd, rfl, -⟩
  · cases r <;> trivial
  · cases r <;> trivial
  · exact hmodest d y hsame
  · obtain ⟨bus, hb, -⟩ := h.fits d _ hd
    have hp := hmodest d _ hd
    cases r with
    | restore =>
      have hstep := proceed_restores hb p
      generalize (p.proceed i f.network).2.broker = b' at hstep
      generalize Phase.after (p.proceed i f.network).1 = q at hstep
      cases hstep with
      | admitted => exact rfl
      | declared => exact hp
      | recalled | rebound | restored | failed | returned | gone => trivial
    | publish | subscribe | start | close =>
      generalize Phase.after (p.proceed i f.network).1 = q
      cases q <;> trivial

theorem Modest.run (hmodest : f.Modest) (h : f.Sound) (xs : List (Happening H)) :
    (f.run xs).Modest := by
  induction xs generalizing f with
  | nil => exact hmodest
  | cons x xs ih => exact ih (hmodest.happen h x) (h.happen x)

theorem Modest.limits (hmodest : f.Modest) {x : Happening H} {qos : Qos} (ha : f.Asks x (.setQos n qos))
    (hx : x ≠ .other (.beside (.setQos n qos))) : qos = {} := by
  generalize hq : Broker.Action.setQos n qos = a at ha
  cases ha with
  | @caller c y _ hy ha =>
    obtain ⟨i, r, p⟩ := y
    have hp := hmodest c _ hy
    cases ha with
    | declares τ d left m =>
      cases d <;> cases hq
      exact hp
    | publishes | binds | rebinds | closes => cases hq
  | other ha =>
    cases ha with
    | declares d m =>
      cases d <;> cases hq
      rfl
    | opens | publishes | polls | accepts | givesBack => cases hq
    | beside => exact absurd (hq ▸ rfl) hx

/-! ## A restoration that others come between -/

/-- Caller `c` sees to the topology of bus `i`, which has handlers for `keys`. -/
structure SeesTo (f : Floor H) (c i : Nat) (τ : Topology) (n : Nat) (keys : List String) : Prop where
  bus : ∃ bus, f.network.buses[i]? = some bus ∧ bus.config.topology = τ ∧ bus.session = n
  known : ∀ key ∈ keys, (f.network.lookup? i key).isSome
  seenTo : ∀ p, f.callers[c]? = some ⟨i, .restore, p⟩ → SeenTo τ n keys f.network.broker p

theorem SeesTo.happen (hsees : f.SeesTo c i τ n keys) (h : f.Sound) (hmodest : f.Modest)
    {x : Happening H} (hqueue : x ≠ .other (.beside (.operate (.deleteQueue τ.queue.name))))
    (hqos : ∀ qos, x ≠ .other (.beside (.setQos n qos))) : (f.happen x).SeesTo c i τ n keys := by
  obtain ⟨bus, hb, rfl, rfl⟩ := hsees.bus
  obtain ⟨bus', hb', helder, -⟩ := h.passes x hb
  refine ⟨⟨bus', hb', by rw [helder.config], helder.session⟩, fun key hkey => ?_, fun p hp => ?_⟩
  · rw [h.lookup?_happen, Option.isSome_or, hsees.known key hkey, Bool.or_true]
  · rcases caller_before hp with ⟨j, r, heq | heq⟩ | hsame | ⟨j, r, p₀, hc, heq, hnext⟩
    · cases heq
      trivial
    · cases heq
      trivial
    · obtain ⟨actions, hrun, hasks⟩ := h.happen_asks x
      rw [hrun]
      refine (hsees.seenTo p hsame).run (fun a ha => (hasks a ha).ne_deleteQueue hqueue) ?_
      rintro _ ha qos rfl
      exact hmodest.limits (hasks _ ha) (hqos qos)
    · cases heq
      rw [hnext]
      refine (proceed_restores hb p₀).seenTo (fun key hkey => ?_) (hsees.seenTo p₀ hc)
      have hknown := hsees.known key hkey
      rw [lookup?, hb] at hknown
      exact Table.mem_keys.mpr hknown

theorem SeesTo.run (hsees : f.SeesTo c i τ n keys) (h : f.Sound) (hmodest : f.Modest)
    {xs : List (Happening H)}
    (hqueue : ∀ x ∈ xs, x ≠ .other (.beside (.operate (.deleteQueue τ.queue.name))))
    (hqos : ∀ x ∈ xs, ∀ qos, x ≠ .other (.beside (.setQos n qos))) :
    (f.run xs).SeesTo c i τ n keys := by
  induction xs generalizing f with
  | nil => exact hsees
  | cons x xs ih =>
    obtain ⟨hqueue, hqueues⟩ := List.forall_mem_cons.mp hqueue
    obtain ⟨hqos, hqoss⟩ := List.forall_mem_cons.mp hqos
    exact ih (hsees.happen h hmodest hqueue hqos) (h.happen x) (hmodest.happen h x) hqueues hqoss

/-- Restoring repairs and never damages. Whatever has happened before, a call to restore the topology
of a bus leaves all exchanges, queues with their messages, deliveries and bindings that were there as
they were, however far it comes, and of the bus it changes nothing but the faults that it meets. If
it returns, the exchange and the queue are there as they are declared, the session gets one delivery
at a time, and the queue is bound for every kind that has a handler. If all that was there before,
the broker stays as it was. With others in between, each step of a caller still does no damage; and
what the caller finds when it asks is there when it returns, unless somebody else has meanwhile
deleted the queue or set the session's limit. -/
theorem restore_repairs (xs : List (Happening H)) {i : Nat} {bus : Bus H}
    (hb : (run {} xs).network.buses[i]? = some bus) :
    let f := run {} xs
    let s := f.network
    let t := (restore i s).2
    let τ := bus.config.topology
    let n := bus.session
    let keys := bus.registry.routingKeys
    Preserves n s.broker t.broker ∧
    (∃ faults, t.buses[i]? = some { bus with faults }) ∧
    ((restore i s).1 = .ok () → t.broker.Stands τ keys ∧ t.broker.limit? n = some 1) ∧
    (s.broker.Stands τ keys → t.broker = s.broker ∨ t.broker = s.broker.setLimit n 1) ∧
    (s.broker.Stands τ keys → s.broker.limit? n = some 1 → t.broker = s.broker) ∧
    ∀ c p, f.callers[c]? = some ⟨i, .restore, p⟩ →
      Preserves n s.broker (f.proceed c).network.broker ∧
      (p = .asking → ∀ more : List (Happening H),
        (∀ x ∈ more, x ≠ .other (.beside (.operate (.deleteQueue τ.queue.name)))) →
        (∀ x ∈ more, ∀ qos, x ≠ .other (.beside (.setQos n qos))) →
        (f.run more).callers[c]? = some ⟨i, .restore, .returned (.ok ())⟩ →
        (f.run more).network.broker.Stands τ keys ∧
          (f.run more).network.broker.limit? n = some 1) := by
  intro f s t τ n keys
  have hsound : f.Sound := sound_empty.run xs
  have hmodest : f.Modest := Modest.run (fun c x hx => by cases hx) sound_empty xs
  have htaken : Taken i .asking s (.returned (restore i s).1) t := restore_taken s
  obtain ⟨hpreserves, hfaults⟩ := htaken.restores (P := fun _ b => Preserves n s.broker b)
    ⟨bus.faults, hb⟩ (fun _ _ _ _ hstep hp => hp.trans hstep.preserves) (.refl n s.broker)
  obtain ⟨hseen, -⟩ := htaken.restores (P := fun p b => SeenTo τ n keys b p)
    ⟨bus.faults, hb⟩ (fun _ _ _ _ hstep hp => hstep.seenTo (fun _ h => h) hp) trivial
  refine ⟨hpreserves, hfaults, hseen.stands, restore_idle hb, fun hstands hlimit => ?_,
    fun c p hc => ⟨?_, ?_⟩⟩
  · rcases restore_idle hb hstands with h | h
    · exact h
    · exact h.trans (Broker.setLimit_of_limit? hlimit)
  · rw [proceed_eq hc fun hp => by cases p <;> cases hp]
    exact (proceed_restores hb p).preserves
  · rintro rfl more hqueue hqos hok
    have hsees : f.SeesTo c i τ n keys := by
      refine ⟨⟨bus, hb, rfl, rfl⟩, fun key hkey => ?_, fun p hp => ?_⟩
      · rw [lookup?, hb]
        exact Table.mem_keys.mp hkey
      · cases hc.symm.trans hp
        trivial
    exact ((hsees.run hsound hmodest hqueue hqos).seenTo _ hok).stands rfl

/-- The queue of a bus with one handler is deleted. A caller restores it, with a subscription in
between; then there is nothing left to restore. -/
theorem restore_repairs_deleted :
    let before : List (Happening Nat) := [.other (.build { service := "s" } .receiver []),
      .call 0 (.subscribe .newCargoBooked 1), .proceed 0, .proceed 0, .proceed 0,
      .other (.beside (.operate (.deleteQueue "s.queue"))), .call 0 .restore]
    let more : List (Happening Nat) := List.replicate 3 (.proceed 1) ++
      [.call 0 (.subscribe .cargoWasHandled 2), .proceed 2, .proceed 2, .proceed 2] ++
      List.replicate 5 (.proceed 1)
    let f := run {} before
    let g := f.run more
    let τ := Topology.forService "s"
    let key := EventKind.newCargoBooked.name
    f.network.broker.queue? "s.queue" = none ∧
    (restore 0 f.network).2.broker.Stands τ [key] ∧
    g.network.broker.Stands τ [key] ∧
    (restore 0 g.network).2.broker = g.network.broker := by
  intro before more f g τ key
  have hf : run {} before = f := rfl
  have hmore : f.run more = g := rfl
  have hg : run {} (before ++ more) = g := run_append ..
  have hdeleted : f.network.broker.queue? "s.queue" = none := by decide +kernel
  have hbus : (f.network.buses[0]?.map fun b => (b.config, b.session, b.registry.routingKeys)) =
      some ({ service := "s" }, 0, [key]) := by decide +kernel
  have hbus' : (g.network.buses[0]?.map fun b => (b.config, b.session, b.registry.routingKeys)) =
      some ({ service := "s" }, 0, [EventKind.cargoWasHandled.name, key]) := by decide +kernel
  have hok : (restore 0 f.network).1 = .ok () := by decide +kernel
  have hasking : f.callers[1]? = some ⟨0, .restore, .asking⟩ := by decide +kernel
  have hreturned : g.callers[1]? = some ⟨0, .restore, .returned (.ok ())⟩ := by decide +kernel
  have hstands : g.network.broker.Stands τ [EventKind.cargoWasHandled.name, key] := by
    refine ⟨?_, ?_, ?_⟩ <;> decide +kernel
  have hlimit : g.network.broker.limit? 0 = some 1 := by decide +kernel
  have hqueue : ∀ x ∈ more, x ≠ .other (.beside (.operate (.deleteQueue τ.queue.name))) := by
    rintro x hx rfl
    simp [more] at hx
  have hqos : ∀ x ∈ more, ∀ qos, x ≠ .other (.beside (.setQos 0 qos)) := by
    rintro x hx qos rfl
    simp [more] at hx
  clear_value g f
  obtain ⟨bus, hb, hbus⟩ := Option.map_eq_some_iff.mp hbus
  injection hbus with hconfig hbus
  injection hbus with hsession hkeys
  obtain ⟨bus', hb', hbus'⟩ := Option.map_eq_some_iff.mp hbus'
  injection hbus' with hconfig' hbus'
  injection hbus' with hsession' hkeys'
  have hrepairs := restore_repairs before (hf.symm ▸ hb)
  have hagain := restore_repairs (before ++ more) (hg.symm ▸ hb')
  simp only [hf, hconfig, hsession, hkeys] at hrepairs
  simp only [hg, hconfig', hsession', hkeys'] at hagain
  obtain ⟨-, -, hrepaired, -, -, hcaller⟩ := hrepairs
  obtain ⟨-, -, -, -, hidle, -⟩ := hagain
  have hrestored := (hcaller 1 _ hasking).2 rfl more hqueue hqos
  rw [hmore] at hrestored
  exact ⟨hdeleted, (hrepaired hok).1, (hrestored hreturned).1, hidle hstands hlimit⟩

end Floor
end CargoEvents
