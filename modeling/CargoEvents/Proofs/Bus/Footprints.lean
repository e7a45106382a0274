import CargoEvents.Proofs.Bus.Floors
import CargoEvents.Proofs.Bus.Lookup

/-! # What a step leaves

A caller asks the session in a step, counts what it published, and then sets its own bus. Of
registries it changes one, in the step in which it registers a handler. What dispatchers and
operators do changes none.
-/
namespace CargoEvents.Network
variable {H : Type} {s t : Network H} {i : Nat} {bus : Bus H} {r : Request H} {p : Phase r}
open Broker (Action)

def lookup? (s : Network H) (j : Nat) (key : String) : Option (Registration H) :=
  s.buses[j]?.bind (·.registry.get? key)

def topology? (s : Network H) (j : Nat) : Option Topology :=
  s.buses[j]?.map (·.config.topology)

def Phase.registers? : {r : Request H} → Phase r → Option (Registration H)
  | .subscribe kind handler, registering => some { kind, handler }
  | _, _ => none

/-! ## Steps of callers -/

inductive Phase.Sets : {r : Request H} → Phase r → (Bus H → Bus H) → Prop
  | alike {r : Request H} {p : Phase r} {g : Bus H → Bus H} (hp : p.registers? = none)
      (hg : ∀ b, Alike b (g b)) : Sets p g
  | registered {kind : EventKind} {handler : H} :
      Sets (.registering : Phase (.subscribe kind handler)) (withHandler kind handler)
  | launched (st : Broker.Stream) : Sets (.launching st) (withDispatcher st)

/-- A network after a step of a caller of bus `i` at phase `p`. -/
def Phase.Leaves (i : Nat) (p : Phase r) (s t : Network H) : Prop :=
  ∃ (u : Network H) (os : List Observation) (g : Bus H → Bus H), s.Called u ∧ p.Sets g ∧
    t = (u.observe i os).onBus i g

theorem bind_pure_snd {ε σ α β : Type} (c : Call ε σ α) (next : α → β) (s : σ) :
    ((c >>= fun a => pure (next a)) s).2 = (c s).2 := by
  rcases c.bind_cases (fun a => pure (next a)) s with h | ⟨a, -, h⟩
  · exact h
  · exact h

theorem onBus_id (s : Network H) (i : Nat) : s.onBus i id = s := by
  rw [onBus, List.modify_id]

theorem Phase.leaves_of_called (hp : p.registers? = none) (os : List Observation)
    (h : s.Called t) : p.Leaves i s (t.observe i os) :=
  ⟨t, os, id, h, .alike hp fun _ => ⟨rfl, rfl, rfl, rfl⟩, (onBus_id ..).symm⟩

theorem whileOpen_pure {α : Type} (i : Nat) (f : Bus H → α) (s : Network H) :
    (whileOpen i (fun bus => pure (f bus)) s).2 = s := by
  rcases whileOpen_cases (fun bus => pure (f bus)) s i with h | ⟨bus, -, -, h⟩
  · rw [h]
  · rw [h]
    rfl

/-- All that a step of a caller leaves. -/
theorem proceed_leaves (i : Nat) (p : Phase r) (s : Network H) :
    p.Leaves i s (p.proceed i s).2 := by
  have hasked (hp : p.registers? = none) {t : Network H} (h : s.Called t) : p.Leaves i s t :=
    Phase.leaves_of_called hp [] h
  have hset {g : Bus H → Bus H} (hg : p.Sets g) : p.Leaves i s (s.onBus i g) :=
    ⟨s, [], g, .refl s, hg, rfl⟩
  cases p with
  | asking =>
    cases r with
    | publish | subscribe | restore =>
      rw [Phase.proceed, whileOpen_pure]
      exact hasked rfl (.refl s)
    | start | close => exact hasked rfl (.refl s)
  | @announcing e =>
    rw [Phase.proceed, bind_pure_snd, publishOver]
    split
    · exact hasked rfl (.refl s)
    · rename_i bus hb
      have hcalled := publishEvent_called (H := H) i bus.config.exchange e s
      split <;> rename_i hp <;> rw [hp] at hcalled
      · exact Phase.leaves_of_called rfl _ hcalled
      · exact Phase.leaves_of_called rfl _ hcalled
  | @binding kind handler t =>
    rw [Phase.proceed, bind_pure_snd]
    exact hasked rfl (bind_called ..)
  | registering => exact hset .registered
  | declaring t left =>
    cases left with
    | nil => exact hasked rfl (.refl s)
    | cons d left =>
      rw [Phase.proceed, bind_pure_snd]
      exact hasked rfl ((declaration_called t d).adapt _ s)
  | rebinding t left =>
    cases left with
    | nil => exact hasked rfl (.refl s)
    | cons key left =>
      rw [Phase.proceed, bind_pure_snd]
      exact hasked rfl (bind_called ..)
  | starting =>
    refine hasked rfl (whileOpen_ind (.refl s) fun bus _ _ => ?_)
    split <;> exact .refl s
  | consuming config =>
    rw [Phase.proceed, bind_pure_snd]
    exact hasked rfl ((consume_called i config.topology.queue.name config.effectiveTag).adapt
      BusError.transportError s)
  | launching st => exact hset (.launched st)
  | closing => exact hasked rfl (.refl s)
  | draining | stopping => exact hset (.alike rfl fun _ => ⟨rfl, rfl, rfl, rfl⟩)
  | shutting =>
    exact ⟨_, [], fun b => { b with closing := some (closeSession i s).1 },
      closeSession_called i s, .alike rfl fun _ => ⟨rfl, rfl, rfl, rfl⟩, shut_eq s i⟩
  | waiting closed =>
    have hclosed : Phase.Leaves i (.waiting closed) s
        (s.onBus i fun b => { b.enter .closed with closing := none }) :=
      hset (.alike rfl fun _ => ⟨rfl, rfl, rfl, rfl⟩)
    cases closed <;> exact hclosed
  | returned | gone => cases r <;> exact hasked rfl (.refl s)

theorem Phase.Leaves.told {α : Type} {f : Entry H → Option α} (h : p.Leaves i s t)
    (hcalled : ∀ j c refusal, c.resolves = false → f (.called j c refusal) = none)
    (hobserved : ∀ j o, f (.observed j o) = none) : t.told f = s.told f := by
  obtain ⟨u, os, g, hu, -, rfl⟩ := h
  exact (u.told_observe i os (hobserved i)).trans (hu.told hcalled)

theorem Phase.Sets.get? {g : Bus H → Bus H} (h : p.Sets g) (b : Bus H) (key : String) :
    (g b).registry.get? key =
      (p.registers?.filter (·.routingKey == key)).or (b.registry.get? key) := by
  cases h with
  | alike hp hg => rw [hp, (hg b).registry, Option.filter_none, Option.none_or]
  | @registered kind handler =>
    rw [withHandler, Registry.get?_insert, Phase.registers?]
    by_cases hkey : key = kind.name
    · simp [hkey, Registration.routingKey, Option.filter]
    · simp [hkey, Ne.symm hkey, Registration.routingKey, Option.filter]
  | launched st => rfl

theorem Phase.Sets.config {g : Bus H → Bus H} (h : p.Sets g) (b : Bus H) :
    (g b).config = b.config := by
  cases h with
  | alike hp hg => exact (hg b).config
  | registered | launched => rfl

theorem Called.lookup? (h : s.Called t) (j : Nat) (key : String) :
    t.lookup? j key = s.lookup? j key := by
  obtain ⟨faults, hf, -⟩ := h.buses j
  rw [Network.lookup?, Network.lookup?, hf]
  cases s.buses[j]? <;> rfl

theorem Called.topology? (h : s.Called t) (j : Nat) : t.topology? j = s.topology? j := by
  obtain ⟨faults, hf, -⟩ := h.buses j
  rw [Network.topology?, Network.topology?, hf, Option.map_map]
  rfl

theorem Phase.Leaves.lookup? (h : p.Leaves i s t) (hb : s.buses[i]? = some bus) (j : Nat)
    (key : String) : t.lookup? j key =
      ((if j = i then p.registers? else none).filter (·.routingKey == key)).or
        (s.lookup? j key) := by
  obtain ⟨u, os, g, hcalled, hg, rfl⟩ := h
  rw [← hcalled.lookup? j, Network.lookup?, Network.lookup?, onBus, observe_buses,
    List.getElem?_modify]
  obtain ⟨faults, hf, -⟩ := hcalled.buses i
  by_cases hij : j = i
  · subst hij
    rw [hf, hb]
    simp only [if_true, Option.map_eq_map, Option.map_some, Option.bind_some]
    exact hg.get? _ key
  · rw [if_neg hij, Option.filter_none, Option.none_or]
    cases u.buses[j]? <;> simp [Ne.symm hij]

theorem Phase.Leaves.lookup?_registering {kind : EventKind} {handler : H}
    (h : (.registering : Phase (.subscribe kind handler)).Leaves i s t)
    (hb : s.buses[i]? = some bus) (j : Nat) (key : String) : t.lookup? j key =
      if j = i ∧ key = kind.name then some { kind, handler } else s.lookup? j key := by
  rw [h.lookup? hb]
  by_cases hj : j = i
  · by_cases hkey : key = kind.name
    · simp [hj, hkey, Phase.registers?, Registration.routingKey, Option.filter]
    · simp [hj, hkey, Ne.symm hkey, Phase.registers?, Registration.routingKey, Option.filter]
  · simp [hj]

/-! ## Acts that are no calls -/

theorem lookup?_congr {j : Nat} {key : String}
    (hstays : ∀ b, s.buses[j]? = some b → t.buses[j]? ≠ none)
    (h : ∀ b', t.buses[j]? = some b' →
      (∃ b, s.buses[j]? = some b ∧ b'.registry.get? key = b.registry.get? key) ∨
        s.buses[j]? = none ∧ b'.registry.get? key = none) :
    t.lookup? j key = s.lookup? j key := by
  unfold lookup?
  cases hb' : t.buses[j]? with
  | none =>
    cases hb : s.buses[j]? with
    | none => rfl
    | some b => exact absurd hb' (hstays b hb)
  | some b' =>
    rcases h b' hb' with ⟨b, hb, hget⟩ | ⟨hb, hget⟩
    · rw [hb]
      exact hget
    · rw [hb]
      exact hget

theorem perform_lookup? (s : Network H) {a : Act H} (ha : a.isCall = false) (j : Nat)
    (key : String) : (s.perform a).lookup? j key = s.lookup? j key := by
  have hnone : a.registers? s j = none := by
    cases a with
    | subscribe => cases ha
    | _ => rfl
  refine lookup?_congr (fun b hb => ?_) fun b' hb' => ?_
  · obtain ⟨b', hb', -⟩ := s.elder_perform a hb
    exact hb' ▸ Option.some_ne_none b'
  · rcases s.registry_perform a hb' with ⟨b, hb, hget⟩ | ⟨hb, hempty⟩
    · rw [hnone] at hget
      exact .inl ⟨b, hb, hget key⟩
    · refine .inr ⟨hb, ?_⟩
      rw [Registry.get?, hempty]
      rfl

theorem receive_lookup? (s : Network H) (i k : Nat) (polled : Broker.Polled) (j : Nat)
    (key : String) : (s.receive i k polled).lookup? j key = s.lookup? j key := by
  rcases s.receive_cases i k polled with h | ⟨bus, st, -, h, hm⟩
  · rw [h]
  · have hgoes : Goes [] s (s.take i k polled) := s.take_goes i k polled
    rw [h]
    refine lookup?_congr (fun b hb => ?_) fun b' hb' => .inl ?_
    · obtain ⟨b', hb', -⟩ := hgoes.kept j b hb
      exact hb' ▸ Option.some_ne_none b'
    · obtain ⟨b, hb, -, -, hregistry, -⟩ := hm.buses j b' hb'
      exact ⟨b, hb, by rw [hregistry]⟩

/-! ## What is asked of the broker -/

def Declaration.action (τ : Topology) (n : Nat) : Declaration → Action
  | exchange => .declareExchange n τ.exchange
  | queue => .declareQueue n τ.queue
  | qos => .setQos n τ.qos

/-- What a caller at this phase asks of the broker. Opening a stream changes nothing there. -/
inductive Phase.Asks : {r : Request H} → Phase r → Action → Prop
  | publishes {e : Event} (n : Nat) (exchange : String) :
      Asks (.announcing : Phase (.publish e)) (.publish n exchange (.ofEvent e))
  | binds {kind : EventKind} {handler : H} (τ : Topology) (n : Nat) :
      Asks (.binding τ : Phase (.subscribe kind handler))
        (.bindQueue n τ.queue.name τ.exchange.name kind.name)
  | declares (τ : Topology) (d : Declaration) (left : List Declaration) (n : Nat) :
      Asks (.declaring τ (d :: left)) (d.action τ n)
  | rebinds (τ : Topology) (key : String) (left : List String) (n : Nat) :
      Asks (.rebinding τ (key :: left)) (.bindQueue n τ.queue.name τ.exchange.name key)
  | closes (n : Nat) : Asks .shutting (.closeSession n)

theorem Declaration.isCall (τ : Topology) (n : Nat) (d : Declaration) : (d.action τ n).isCall := by
  cases d <;> rfl

theorem Phase.Asks.isCall {a : Action} (h : p.Asks a) : a.isCall := by
  cases h with
  | publishes | binds | rebinds | closes => rfl
  | declares τ d left n => exact d.isCall τ n

theorem onSession'_asks {i : Nat} {c : SessionCall} {op : Nat → Broker → Except BrokerError Broker}
    {P : Action → Prop} (hop : ∀ n, ∃ a, P a ∧ ∀ b : Broker, b.after (op n b) = b.act a) (s : Network H) :
    (onSession' i c op s).2.broker = s.broker ∨
      ∃ a, P a ∧ (onSession' i c op s).2.broker = s.broker.act a := by
  rcases onSession'_broker i c op s with h | ⟨n, h⟩
  · exact .inl h
  · obtain ⟨a, ha, hact⟩ := hop n
    exact .inr ⟨a, ha, (act_of_ok h).trans (hact _)⟩

theorem declaration_asks {P : Action → Prop} (τ : Topology) (d : Declaration)
    (hP : ∀ n, P (d.action τ n)) (i : Nat) (s : Network H) :
    (d.call i τ s).2.broker = s.broker ∨
      ∃ a, P a ∧ (d.call i τ s).2.broker = s.broker.act a := by
  cases d <;> exact onSession'_asks (fun n => ⟨_, hP n, fun _ => rfl⟩) s

theorem bind_asks {P : Action → Prop} (τ : Topology) (key : String)
    (hP : ∀ n, P (.bindQueue n τ.queue.name τ.exchange.name key)) (i : Nat) (s : Network H) :
    ((calls i).bind τ key s).2.broker = s.broker ∨
      ∃ a, P a ∧ ((calls i).bind τ key s).2.broker = s.broker.act a :=
  onSession'_asks (fun n => ⟨_, hP n, fun _ => rfl⟩) s

theorem publishOver_asks {P : Action → Prop} (e : Event)
    (hP : ∀ n exchange, P (.publish n exchange (.ofEvent e))) (i : Nat) (s : Network H) :
    (publishOver i e s).2.broker = s.broker ∨
      ∃ a, P a ∧ (publishOver i e s).2.broker = s.broker.act a := by
  unfold publishOver
  split
  · exact .inl rfl
  · rename_i bus hb
    have hasks : ((calls i).publishEvent bus.config.exchange e s).2.broker = s.broker ∨
        ∃ a, P a ∧ ((calls i).publishEvent bus.config.exchange e s).2.broker = s.broker.act a :=
      onSession'_asks (fun n => ⟨_, hP n bus.config.exchange, fun _ => rfl⟩) s
    split <;> rename_i hp <;> rw [hp] at hasks <;> simpa using hasks

theorem consume_broker (i : Nat) (queue tag : String) (s : Network H) :
    (consume i queue tag s).2.broker = s.broker := by
  unfold consume onSession
  split
  · rfl
  · rename_i bus hb
    split
    · rfl
    · cases hop : s.broker.consume bus.session queue <;> simp [hop, Except.map]

/-- A caller asks one thing of the broker at most in a step. -/
theorem proceed_asks (i : Nat) (p : Phase r) (s : Network H) :
    (p.proceed i s).2.broker = s.broker ∨
      ∃ a, p.Asks a ∧ (p.proceed i s).2.broker = s.broker.act a := by
  cases p with
  | asking =>
    cases r with
    | publish | subscribe | restore =>
      rw [Phase.proceed, whileOpen_pure]
      exact .inl rfl
    | start | close => exact .inl rfl
  | @announcing e =>
    rw [Phase.proceed, bind_pure_snd]
    exact publishOver_asks e .publishes i s
  | @binding kind handler τ =>
    rw [Phase.proceed, bind_pure_snd]
    exact bind_asks τ kind.name (.binds τ) i s
  | declaring τ left =>
    cases left with
    | nil => exact .inl rfl
    | cons d left =>
      rw [Phase.proceed, bind_pure_snd]
      exact declaration_asks τ d (.declares τ d left) i s
  | rebinding τ left =>
    cases left with
    | nil => exact .inl rfl
    | cons key left =>
      rw [Phase.proceed, bind_pure_snd]
      exact bind_asks τ key (.rebinds τ key left) i s
  | starting =>
    refine .inl (whileOpen_ind (P := fun t => t.broker = s.broker) rfl fun bus _ _ => ?_)
    split <;> rfl
  | consuming config =>
    rw [Phase.proceed, bind_pure_snd]
    exact .inl (consume_broker i config.topology.queue.name config.effectiveTag s)
  | shutting =>
    have hclosed : (closeSession i s).2.broker = s.broker ∨
        ∃ a, Phase.Asks (.shutting : Phase (.close : Request H)) a ∧
          (closeSession i s).2.broker = s.broker.act a :=
      onSession'_asks (fun n => ⟨_, .closes n, fun _ => rfl⟩) s
    exact hclosed
  | registering | launching | closing | draining | stopping => exact .inl rfl
  | waiting closed => cases closed <;> exact .inl rfl
  | returned | gone => cases r <;> exact .inl rfl

inductive Act.Asks : Act H → Action → Prop
  | opens {config : BusConfig} {sink : ErrorSink} {faults : List (String × BrokerError)} :
      Asks (.build config sink faults) .openSession
  | declares {config : BusConfig} {sink : ErrorSink} {faults : List (String × BrokerError)}
      (d : Declaration) (n : Nat) : Asks (.build config sink faults) (d.action config.topology n)
  | publishes {i : Nat} {e : Event} (n : Nat) (exchange : String) :
      Asks (.publishOver i e) (.publish n exchange (.ofEvent e))
  | polls {i k : Nat} (st : Broker.Stream) : Asks (.pull i k) (.poll st)
  | accepts {i k : Nat} (n tag : Nat) : Asks (.acknowledge i k) (.resolve n tag .ack)
  | givesBack {i k : Nat} (n tag : Nat) : Asks (.resume i k) (.resolve n tag (.nack true))
  | beside (a : Action) : Asks (.beside a) a

/-- Some things were asked of the broker, and nothing else. -/
def Asked (P : Action → Prop) (s t : Network H) : Prop :=
  ∃ actions, t.broker = s.broker.run actions ∧ ∀ a ∈ actions, P a

theorem asked_of_broker {P : Action → Prop} (h : t.broker = s.broker) : Asked P s t :=
  ⟨[], h, nofun⟩

theorem asked_of_one {P : Action → Prop}
    (h : t.broker = s.broker ∨ ∃ a, P a ∧ t.broker = s.broker.act a) : Asked P s t := by
  rcases h with h | ⟨a, ha, h⟩
  · exact asked_of_broker h
  · exact ⟨[a], h, List.forall_mem_singleton.mpr ha⟩

theorem Asked.trans {P : Action → Prop} (s t u : Network H) (h : Asked P s t) (h' : Asked P t u) :
    Asked P s u := by
  obtain ⟨xs, hx, hxs⟩ := h
  obtain ⟨ys, hy, hys⟩ := h'
  refine ⟨xs ++ ys, by rw [hy, hx, Broker.run_append], fun a ha => ?_⟩
  exact (List.mem_append.mp ha).elim (hxs a) (hys a)

theorem declare_asks {P : Action → Prop} (τ : Topology) (hP : ∀ d n, P (Declaration.action τ n d))
    (i : Nat) : Call.Within (Asked P) ((calls (H := H) i).declare τ) := by
  rw [declare_eq]
  refine .forM (fun _ => asked_of_broker rfl) Asked.trans (fun d => .adapt (fun s => ?_) _) _
  exact asked_of_one (declaration_asks τ d (hP d) i s)

theorem build_asks {config : BusConfig} {sink : ErrorSink} {faults : List (String × BrokerError)}
    (s : Network H) : Asked (Act.Asks (.build config sink faults : Act H)) s
      (build config sink faults s).2 := by
  let bus : Bus H := { config, session := s.broker.sessions.length, sink, faults }
  let s₁ : Network H := { s with broker := s.broker.openSession, buses := s.buses ++ [bus] }
  have hopened : Asked (Act.Asks (.build config sink faults : Act H)) s s₁ :=
    ⟨[.openSession], rfl, List.forall_mem_singleton.mpr .opens⟩
  have hdeclared : Asked (Act.Asks (.build config sink faults : Act H)) s _ :=
    hopened.trans _ _ _ (declare_asks config.topology .declares s.buses.length s₁)
  simp only [build]
  split <;> rename_i hd <;> rw [hd] at hdeclared <;> exact hdeclared

theorem Dispatched.asks {a : Act H} {k : Nat} (h : Dispatched s a i k t) : Asked a.Asks s t := by
  cases h with
  | idle => exact asked_of_broker rfl
  | moved hd hm hmoved =>
    refine asked_of_one ?_
    rw [hmoved.broker]
    cases hm with
    | stopped | completed | panicked | unacknowledged | unresumed => exact .inl rfl
    | looked _ hy => exact .inr ⟨_, .polls _, (congrArg (·.2.2) hy).symm⟩
    | acknowledged d => exact .inr ⟨_, .accepts _ d.tag, rfl⟩
    | resumed d => exact .inr ⟨_, .givesBack _ d.tag, rfl⟩

/-- All that is asked of the broker past the callers. -/
theorem perform_asks (s : Network H) {a : Act H} (ha : a.isCall = false) :
    Asked a.Asks s (s.perform a) := by
  cases a with
  | build config sink faults => exact s.build_asks
  | publishOver i e => exact asked_of_one (publishOver_asks e .publishes i s)
  | drop | fault => exact asked_of_broker rfl
  | pull i k => exact (s.pull_dispatched i k).asks
  | complete i k result => exact (s.complete_dispatched i k result).asks
  | panic i k => exact (s.panic_dispatched i k).asks
  | acknowledge i k => exact (s.acknowledge_dispatched i k).asks
  | resume i k => exact (s.resume_dispatched i k).asks
  | beside a => exact ⟨[a], rfl, List.forall_mem_singleton.mpr (.beside a)⟩
  | publish | subscribe | start | restore | beginClose | finishClose => cases ha

end CargoEvents.Network

namespace CargoEvents.Floor
open Network
open Broker (Action)
variable {H : Type} {f : Floor H}

theorem Sound.goes_on (h : f.Sound) (c : Nat) :
    (f.proceed c = f ∧ ∀ x, f.callers[c]? = some x → x.phase.needs) ∨
    ∃ (i : Nat) (r : Request H) (p : Phase r) (bus : Bus H), f.callers[c]? = some ⟨i, r, p⟩ ∧
      f.network.buses[i]? = some bus ∧ f.proceed c = ⟨(p.proceed i f.network).2,
        f.callers.set c ⟨i, r, .after (p.proceed i f.network).1⟩⟩ := by
  cases hc : f.callers[c]? with
  | none => exact .inl ⟨by simp only [Floor.proceed, hc], by simp⟩
  | some x =>
    obtain ⟨i, r, p⟩ := x
    cases hblocked : p.needs && f.isLocked i with
    | true =>
      refine .inl ⟨by simp only [Floor.proceed, hc, hblocked, if_true], fun x hx => ?_⟩
      obtain rfl := Option.some.inj hx
      exact (Bool.and_eq_true_iff.mp hblocked).1
    | false =>
      obtain ⟨bus, hb, -⟩ := h.fits c _ hc
      exact .inr ⟨i, r, p, bus, rfl, hb, proceed_eq hc fun hp => by simpa [hp] using hblocked⟩

theorem caller_before {d : Nat} {y : Caller H} {x : Happening H}
    (hy : (f.happen x).callers[d]? = some y) :
    (∃ i r, y = ⟨i, r, .asking⟩ ∨ y = ⟨i, r, .gone⟩) ∨ f.callers[d]? = some y ∨
    ∃ (i : Nat) (r : Request H) (p : Phase r), f.callers[d]? = some ⟨i, r, p⟩ ∧
      y = ⟨i, r, .after (p.proceed i f.network).1⟩ ∧
      (f.happen x).network = (p.proceed i f.network).2 := by
  cases x with
  | call i r =>
    simp only [Floor.happen] at hy
    split at hy
    · rcases Nat.lt_or_ge d f.callers.length with hd | hd
      · exact .inr (.inl ((List.getElem?_append_left hd).symm.trans hy))
      · rw [List.getElem?_append_right hd] at hy
        exact .inl ⟨i, r, .inl (List.mem_singleton.mp (List.mem_of_getElem? hy))⟩
    · exact .inr (.inl hy)
  | proceed c =>
    simp only [Floor.happen, Floor.proceed] at hy ⊢
    cases hc : f.callers[c]? with
    | none =>
      rw [hc] at hy
      exact .inr (.inl hy)
    | some z =>
      rw [hc] at hy
      dsimp only at hy ⊢
      split at hy
      · exact .inr (.inl hy)
      · rename_i hgoes
        rw [if_neg hgoes]
        change (f.callers.set c
          ⟨z.bus, z.request, .after (z.phase.proceed z.bus f.network).1⟩)[d]? = some y at hy
        by_cases hcd : c = d
        · subst hcd
          obtain ⟨hlt, -⟩ := List.getElem?_eq_some_iff.mp hc
          rw [List.getElem?_set_self hlt] at hy
          exact .inr (.inr ⟨z.bus, z.request, z.phase, hc, (Option.some.inj hy).symm, rfl⟩)
        · exact .inr (.inl ((List.getElem?_set_ne hcd).symm.trans hy))
  | leave c =>
    rw [Floor.happen, List.getElem?_modify] at hy
    by_cases hcd : c = d
    · simp only [hcd, if_true] at hy
      obtain ⟨z, -, rfl⟩ := Option.map_eq_some_iff.mp hy
      exact .inl ⟨z.bus, z.request, .inr rfl⟩
    · simp only [hcd, if_false, Option.map_eq_map, Option.map_id'] at hy
      exact .inr (.inl hy)
  | yielded i k polled => exact .inr (.inl hy)
  | other a =>
    simp only [Floor.happen] at hy
    split at hy <;> exact .inr (.inl hy)

inductive Asks (f : Floor H) : Happening H → Action → Prop
  | caller {c : Nat} {x : Caller H} {a : Action} (hx : f.callers[c]? = some x)
      (ha : x.phase.Asks a) : Asks f (.proceed c) a
  | other {act : Act H} {a : Action} (ha : act.Asks a) : Asks f (.other act) a

theorem Sound.happen_asks (h : f.Sound) (x : Happening H) :
    Asked (f.Asks x) f.network (f.happen x).network := by
  cases x with
  | call i r =>
    simp only [Floor.happen]
    split <;> exact asked_of_broker rfl
  | proceed c =>
    simp only [Floor.happen]
    rcases h.goes_on c with ⟨heq, -⟩ | ⟨i, r, p, bus, hc, -, heq⟩
    · rw [heq]
      exact asked_of_broker rfl
    · rw [heq]
      refine asked_of_one ((proceed_asks i p f.network).imp_right ?_)
      rintro ⟨a, ha, hact⟩
      exact ⟨a, .caller hc ha, hact⟩
  | leave c => exact asked_of_broker rfl
  | yielded i k polled => exact asked_of_broker (f.network.receive_broker i k polled)
  | other a =>
    simp only [Floor.happen]
    split
    · exact asked_of_broker rfl
    · rename_i ha
      obtain ⟨actions, hrun, hasks⟩ := f.network.perform_asks (Bool.eq_false_iff.mpr ha)
      exact ⟨actions, hrun, fun x hx => .other (hasks x hx)⟩

theorem Asks.ne_deleteQueue {x : Happening H} {a : Action} {queue : String} (h : f.Asks x a)
    (hx : x ≠ .other (.beside (.operate (.deleteQueue queue)))) :
    a ≠ .operate (.deleteQueue queue) := by
  rintro rfl
  cases h with
  | caller _ ha => cases ha.isCall
  | other ha =>
    generalize hq : Action.operate (.deleteQueue queue) = a at ha
    cases ha with
    | declares d n => cases d <;> cases hq
    | opens | publishes | polls | accepts | givesBack => cases hq
    | beside => exact hx (hq ▸ rfl)

end CargoEvents.Floor
