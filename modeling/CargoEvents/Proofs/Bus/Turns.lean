import CargoEvents.Proofs.Broker.Ledger
import CargoEvents.Proofs.Bus.Sound

/-! # Turns of a dispatcher

A dispatcher that nothing disturbs takes its steps one after the other, each in one turn.
Three turns are an attempt at a delivery: it is pulled and given to its handler, the
handler returns, and the delivery is resolved. What is announced meanwhile goes behind.
-/
namespace CargoEvents

def Broker.Copy.kind (c : Broker.Copy) : String := eventKind c.typeTag c.routingKey

/-- The entry, if it is part of how dispatcher `k` of bus `i` attempts deliveries: what it
noted, and the resolutions and reports of the bus. -/
def Entry.log? {H : Type} (i k : Nat) (e : Entry H) : Option (Entry H) :=
  match e with
  | .called j c none => if j = i ∧ c.resolves then some e else none
  | .reported j _ => if j = i then some e else none
  | _ => e.by? i k

namespace Network
variable {H σ : Type}
open Broker (Action Copy Held Polled Stream)

def log (s : Network H) (i k : Nat) : List (Entry H) := s.told (Entry.log? i k)

/-- The next step of a dispatcher, wherever it stands. The handlers share a state. -/
def turn (run : H → Event → Call HandlerError σ Unit) (i k : Nat) :
    Network H × σ → Network H × σ
  | (s, t) => match s.dispatcher? i k with
    | some (_, { position := .pulling, .. }) => (s.pull i k, t)
    | some (_, { position := .handling _ r e, .. }) =>
      (s.complete i k (run r.handler e t).1, (run r.handler e t).2)
    | some (_, { position := .acknowledging _, .. }) => (s.acknowledge i k, t)
    | some (_, { position := .pausing .., .. }) => (s.resume i k, t)
    | some (_, { position := .ended, .. }) | none => (s, t)

/-- Dispatcher `k` of bus `i` is neither stopped nor cut off, and no fault is set that it
would meet. `x` is the session of the bus. -/
structure Undisturbed (s : Network H) (i k : Nat) (bus : Bus H) (d : Dispatcher H)
    (x : Broker.Session) : Prop where
  dispatcher : s.dispatcher? i k = some (bus, d)
  faultless : bus.faults = []
  runs : bus.shutdown = false
  session : s.broker.sessions[bus.session]? = some x
  isOpen : x.isOpen
  current : d.stream.epoch = s.broker.epoch
  delivers : s.broker.deliveryFaults = []
  declared : s.broker.queues.contains bus.config.topology.queue.name

/-- A copy waits in the queue, or the bus's session holds one. -/
def Busy (s : Network H) (i k : Nat) (queue : String) : Prop :=
  ∃ bus d x, Undisturbed s i k bus d x ∧ (s.broker.ready queue ≠ [] ∨ x.unacked ≠ [])

/-- Nothing waits in the queue, the bus's session holds nothing, and the dispatcher stands
between deliveries. -/
def Drained (s : Network H) (i k : Nat) (queue : String) : Prop :=
  ∃ bus st x, Undisturbed s i k bus { stream := st } x ∧ s.broker.ready queue = [] ∧
    x.unacked = []

theorem Busy.not_drained {s : Network H} {i k : Nat} {queue : String} (h : s.Busy i k queue) :
    ¬s.Drained i k queue := by
  rintro ⟨bus', st, y, hu', hready, hfree⟩
  obtain ⟨bus, d, x, hu, hbusy⟩ := h
  obtain ⟨rfl, -⟩ := Prod.mk.inj (Option.some.inj (hu.dispatcher.symm.trans hu'.dispatcher))
  obtain rfl : x = y := Option.some.inj (hu.session.symm.trans hu'.session)
  exact hbusy.elim (· hready) (· hfree)

/-! ## Views -/

theorem log_note (s : Network H) (e : Entry H) (i k : Nat) :
    (s.note e).log i k = s.log i k ++ [e].filterMap (Entry.log? i k) := s.told_note e _

@[simp] theorem log_observe (s : Network H) (i : Nat) (os : List Observation) (j k : Nat) :
    (s.observe i os).log j k = s.log j k := s.told_observe i os fun _ => rfl

@[simp] theorem log_move (s : Network H) (i k : Nat) (p : Position H) (j l : Nat) :
    (s.move i k p).log j l = s.log j l := rfl

theorem log_report (s : Network H) (i k : Nat) (es : List BusError) :
    (s.report i es).log i k = s.log i k ++ es.map (.reported i) := by
  rw [log, told_report s i es fun _ => rfl]
  simp [log, Entry.log?]

theorem dispatcher?_onDispatcher {s : Network H} {i k : Nat} {bus : Bus H} {d : Dispatcher H}
    (h : s.dispatcher? i k = some (bus, d)) (f : Dispatcher H → Dispatcher H) :
    (s.onDispatcher i k f).dispatcher? i k =
      some ({ bus with dispatchers := bus.dispatchers.modify k f }, f d) := by
  obtain ⟨hb, hk⟩ := dispatcher?_eq_some.mp h
  refine dispatcher?_eq_some.mpr ⟨?_, ?_⟩
  · simp [onDispatcher, onBus, hb]
  · simp [hk]

theorem dispatcher?_congr {s s' : Network H} (h : s'.buses = s.buses) (i k : Nat) :
    s'.dispatcher? i k = s.dispatcher? i k := by
  rw [dispatcher?, dispatcher?, h]

theorem pull_eq_take {s : Network H} {i k : Nat} {bus : Bus H} {st st' : Stream} {polled : Polled}
    {b' : Broker} (hd : s.dispatcher? i k = some (bus, { stream := st, position := .pulling }))
    (hr : bus.shutdown = false) (hp : s.broker.poll st = (polled, st', b')) :
    s.pull i k = take (({ s with broker := b' } : Network H).onDispatcher i k
      fun d => { d with stream := st' }) i k polled := by
  simp [pull, hd, hr, hp]

theorem take_delivery {s : Network H} {i : Nat} {bus : Bus H} (hb : s.buses[i]? = some bus)
    (k : Nat) (d : Broker.Delivery) {r : Registration H} {e : Event}
    (hget : bus.registry.get? d.kind = some r) (he : r.decode d.body = .ok e) :
    s.take i k (.delivery d) =
      ((s.note (.pulled i k d)).note (.entered i k d r e)).move i k (.handling d r e) := by
  simp [take, hb, Registry.accept, hget, he, observe]

theorem settle_eq {s : Network H} {i : Nat} {bus : Bus H} (hb : s.buses[i]? = some bus)
    (hf : bus.faults = []) {d : Broker.Delivery} {how : Broker.Resolution} {b' : Broker}
    (hr : s.broker.resolve bus.session d.tag how = .ok b') (os : List Observation) :
    s.settle i bus d how os =
      (note { s with broker := b' } (.called i (.ofResolution d.tag how) none)).observe i os := by
  simp only [settle, resolve, onSession', onSession, hb, hf, takeFault, hr]
  rfl

/-! ## Serving -/

/-- Undisturbed dispatcher `k` of bus `i` stands at `p` and serves `queue`: `tag` is the last
tag of its session, `held` is what the session holds, and `ready` waits. -/
def Serving (registry : Registry H) (queue : String) (i k : Nat) (s : Network H)
    (p : Position H) (tag : Nat) (held : List Held) (ready : List Copy) : Prop :=
  Sound (fun _ _ => True) s ∧ ∃ bus st x, Undisturbed s i k bus { stream := st, position := p } x ∧
    bus.registry = registry ∧ bus.config.topology.queue.name = queue ∧ x.lastTag = tag ∧
    x.unacked = held ∧ s.broker.ready queue = ready

variable {registry : Registry H} {queue : String} {i k : Nat} {s : Network H} {tag : Nat}
  {held : List Held} {ready : List Copy}

theorem Undisturbed.serving {acts : List (Act H)} {bus : Bus H} {st : Stream} {p : Position H}
    {x : Broker.Session}
    (h : Undisturbed (run {} acts) i k bus { stream := st, position := p } x) :
    Serving bus.registry bus.config.topology.queue.name i k (run {} acts) p x.lastTag x.unacked
      ((run {} acts).broker.ready bus.config.topology.queue.name) :=
  ⟨(sound_empty _).run acts fun _ _ _ _ => trivial, bus, st, x, h, rfl, rfl, rfl, rfl, rfl⟩

theorem Serving.sound_perform {p : Position H} (h : Serving registry queue i k s p tag held ready)
    (a : Act H) : Sound (fun _ _ => True) (s.perform a) := h.1.perform a fun _ _ _ _ => trivial

theorem Serving.ready_eq {p : Position H} (h : Serving registry queue i k s p tag held ready) :
    s.broker.ready queue = ready := by
  obtain ⟨-, bus, st, x, -, -, -, -, -, hready⟩ := h
  exact hready

theorem Serving.busy_of_ready {p : Position H} {copy : Copy}
    (h : Serving registry queue i k s p tag held (copy :: ready)) : s.Busy i k queue := by
  have hready := h.ready_eq
  obtain ⟨-, bus, st, x, hu, -⟩ := h
  exact ⟨bus, _, x, hu, .inl (by simp [hready])⟩

theorem Serving.busy_of_held {p : Position H} {lent : Held}
    (h : Serving registry queue i k s p tag (lent :: held) ready) : s.Busy i k queue := by
  obtain ⟨-, bus, st, x, hu, -, -, -, hheld, -⟩ := h
  exact ⟨bus, _, x, hu, .inr (by simp [hheld])⟩

theorem Serving.drained (h : Serving registry queue i k s .pulling tag [] []) :
    s.Drained i k queue := by
  have hready := h.ready_eq
  obtain ⟨-, bus, st, x, hu, -, -, -, hheld, -⟩ := h
  exact ⟨bus, st, x, hu, hready, hheld⟩

theorem Serving.pull {copy : Copy} {r : Registration H} {e : Event}
    (h : Serving registry queue i k s .pulling tag [] (copy :: ready))
    (hget : registry.get? copy.kind = some r) (he : r.decode copy.body = .ok e) :
    Serving registry queue i k (s.pull i k) (.handling (copy.delivery (tag + 1)) r e) (tag + 1)
      [{ tag := tag + 1, queue, copy }] ready ∧
    (s.pull i k).log i k = s.log i k ++
      [.pulled i k (copy.delivery (tag + 1)), .entered i k (copy.delivery (tag + 1)) r e] := by
  have hsound := h.sound_perform (.pull i k)
  obtain ⟨hs, bus, st, x, hu, rfl, rfl, rfl, hfree, hready⟩ := h
  have hdisp := hs.dispatchers i k bus _ hu.dispatcher
  have hsession : st.session = bus.session := hdisp.session
  have hqueue : st.queue = bus.config.topology.queue.name := hdisp.queue
  obtain ⟨hb, hk⟩ := dispatcher?_eq_some.mp hu.dispatcher
  -- The stream does not sleep: it only waits while its queue is empty or its session is not.
  have hawake : st.waitedAt ≠ some s.broker.signals := by
    intro hw
    rcases (hdisp.waits _ hw).2 rfl with hr | ⟨y, hy, hne⟩
    · rw [hqueue, hready] at hr
      cases hr
    · rw [hsession, hu.session, Option.some.injEq] at hy
      exact hne (hy ▸ hfree)
  have hpoll : s.broker.poll st = (.delivery (copy.delivery (x.lastTag + 1)),
      { st with waitedAt := none },
      s.broker.handOut st.session st.queue (x.lastTag + 1) copy) := by
    refine Broker.poll_eq_delivery hawake (hsession ▸ hu.session) hu.isOpen hu.current.symm
      hu.delivers ?_ (hqueue ▸ hready)
    simp only [Broker.Session.isFull, hfree, List.length_nil, Bool.and_eq_true, decide_eq_true_eq]
    omega
  have hstream := dispatcher?_onDispatcher (s := { s with
    broker := s.broker.handOut st.session st.queue (x.lastTag + 1) copy }) hu.dispatcher
    fun d => { d with stream := { st with waitedAt := none } }
  have hpull := pull_eq_take hu.dispatcher hu.runs hpoll
  rw [take_delivery (dispatcher?_eq_some.mp hstream).1 k (copy.delivery (x.lastTag + 1)) hget he]
    at hpull
  rw [perform, hpull] at hsound
  rw [hpull]
  refine ⟨⟨hsound, _, _, { x with
    lastTag := x.lastTag + 1
    unacked := x.unacked ++ [{ tag := x.lastTag + 1, queue := st.queue, copy }] },
    ⟨dispatcher?_onDispatcher ((dispatcher?_congr rfl i k).trans hstream) _, hu.faultless, hu.runs,
      ?_, hu.isOpen, hu.current, hu.delivers, ?_⟩, rfl, rfl, rfl, ?_, ?_⟩, ?_⟩
  · simp [move, onDispatcher, onBus, Broker.handOut, hsession, hu.session]
  · simpa [move, onDispatcher, onBus, Broker.handOut] using hu.declared
  · simp [hfree, hqueue]
  · refine (Broker.ready_handOut ..).trans ?_
    simp [hqueue, hready]
  · rw [log_move, log_note, log_note, List.append_assoc]
    simp [Entry.log?, Entry.by?]
    rfl

theorem Undisturbed.serving_move {bus : Bus H} {st : Stream} {p : Position H} {x x' : Broker.Session}
    (b' : Broker) {t : Network H} (hu : Undisturbed s i k bus { stream := st, position := p } x)
    (hbuses : t.buses = s.buses) (hbroker : t.broker = b') (hepoch : b'.epoch = s.broker.epoch)
    (hfaults : b'.deliveryFaults = s.broker.deliveryFaults)
    (hqueues : ∀ q, b'.queues.contains q = s.broker.queues.contains q)
    (hsession : b'.sessions[bus.session]? = some x') (hopen : x'.isOpen) (p' : Position H)
    (hsound : Sound (fun _ _ => True) (t.move i k p')) :
    Serving bus.registry bus.config.topology.queue.name i k (t.move i k p') p' x'.lastTag
      x'.unacked (b'.ready bus.config.topology.queue.name) := by
  subst hbroker
  have hd := dispatcher?_onDispatcher ((dispatcher?_congr hbuses i k).trans hu.dispatcher)
    fun d => { d with position := p' }
  refine ⟨hsound, _, st, x', ⟨hd, hu.faultless, hu.runs, hsession, hopen, ?_, ?_, ?_⟩, rfl, rfl, rfl,
    rfl, rfl⟩
  · exact hu.current.trans hepoch.symm
  · exact hfaults.trans hu.delivers
  · exact (hqueues _).trans hu.declared

theorem Serving.complete {d : Broker.Delivery} {r : Registration H} {e : Event}
    (h : Serving registry queue i k s (.handling d r e) tag held ready)
    (result : Except HandlerError Unit) :
    Serving registry queue i k (s.complete i k result) (.afterRun d r result) tag held ready ∧
    (s.complete i k result).log i k = s.log i k ++ [.left i k d result] := by
  have hsound := h.sound_perform (.complete i k result)
  obtain ⟨-, bus, st, x, hu, rfl, rfl, rfl, rfl, rfl⟩ := h
  have hcomplete : s.complete i k result =
      ((s.note (.left i k d result)).observe i [.handlerRun d.kind]).move i k
        (.afterRun d r result) := by
    simp only [Network.complete, hu.dispatcher]
  rw [perform, hcomplete] at hsound
  rw [hcomplete]
  refine ⟨hu.serving_move _ (by simp) (by simp) rfl rfl (fun _ => rfl) hu.session
    hu.isOpen _ hsound, ?_⟩
  rw [log_move, log_observe, log_note]
  simp [Entry.log?, Entry.by?]

theorem Serving.acknowledge {d : Broker.Delivery} {copy : Copy}
    (h : Serving registry queue i k s (.acknowledging d) tag
      [{ tag := d.tag, queue, copy }] ready) :
    Serving registry queue i k (s.acknowledge i k) .pulling tag [] ready ∧
    (s.acknowledge i k).log i k = s.log i k ++ [.called i (.ack d.tag) none] := by
  have hsound := h.sound_perform (.acknowledge i k)
  obtain ⟨-, bus, st, x, hu, rfl, rfl, rfl, hheld, rfl⟩ := h
  let b' := (s.broker.onSession bus.session (·.release d.tag)).signal
  have hresolve : s.broker.resolve bus.session d.tag .ack = .ok b' := by
    simp [Broker.resolve, hu.session, hu.isOpen, hheld, Broker.Session.release, b']
  have hacknowledge : s.acknowledge i k =
      ((note { s with broker := b' } (.called i (.ack d.tag) none)).observe i
        [.delivery d.kind .ack]).move i k .pulling := by
    simp only [Network.acknowledge, hu.dispatcher]
    rw [settle_eq (dispatcher?_eq_some.mp hu.dispatcher).1 hu.faultless hresolve]
    rfl
  have hsession : b'.sessions[bus.session]? = some (x.release d.tag) := by
    simp [b', Broker.signal, Broker.onSession, hu.session]
  rw [perform, hacknowledge] at hsound
  rw [hacknowledge]
  have hready : b'.ready bus.config.topology.queue.name =
      s.broker.ready bus.config.topology.queue.name := rfl
  refine ⟨?_, ?_⟩
  · have hserving := hu.serving_move b' (by simp) (by simp) rfl rfl (fun _ => rfl) hsession
      hu.isOpen .pulling hsound
    simpa [Broker.Session.release, hheld, hready] using hserving
  · rw [log_move, log_observe, log_note]
    simp [Entry.log?, SessionCall.resolves]
    rfl

theorem Serving.resume {d : Broker.Delivery} {copy : Copy} {key : String} {e : HandlerError}
    (h : Serving registry queue i k s (.pausing d (.failed key e)) tag
      [{ tag := d.tag, queue, copy }] ready) :
    Serving registry queue i k (s.resume i k) .pulling tag [] (copy.marked :: ready) ∧
    (s.resume i k).log i k = s.log i k ++
      [.called i (.nack d.tag true) none, .reported i (.handlerFailed key d.tag e)] := by
  have hsound := h.sound_perform (.resume i k)
  obtain ⟨-, bus, st, x, hu, rfl, rfl, rfl, hheld, rfl⟩ := h
  let lent : Held := { tag := d.tag, queue := bus.config.topology.queue.name, copy }
  let b' := ((s.broker.onSession bus.session (·.release d.tag)).giveBack lent).signal
  have hresolve : s.broker.resolve bus.session d.tag (.nack true) = .ok b' := by
    simp [Broker.resolve, hu.session, hu.isOpen, hheld, Broker.Session.release, b', lent]
  have hresume : s.resume i k =
      (((note { s with broker := b' } (.called i (.nack d.tag true) none)).observe i
        [.delivery d.kind .nack]).report i [.handlerFailed key d.tag e]).move i k .pulling := by
    simp only [Network.resume, hu.dispatcher]
    rw [settle_eq (dispatcher?_eq_some.mp hu.dispatcher).1 hu.faultless hresolve]
    rfl
  have hsession : b'.sessions[bus.session]? = some (x.release d.tag) := by
    simp [b', Broker.signal, Broker.onSession, hu.session]
  have hready : b'.ready bus.config.topology.queue.name =
      copy.marked :: s.broker.ready bus.config.topology.queue.name := by
    have hback := @Broker.ready_giveBack (s.broker.onSession bus.session (·.release d.tag)) lent _
      fun _ => hu.declared
    rwa [if_pos rfl] at hback
  rw [perform, hresume] at hsound
  rw [hresume]
  refine ⟨?_, ?_⟩
  · have hserving := hu.serving_move b' (by simp) (by simp) rfl rfl
      (fun q => by simp [b', Broker.signal, Broker.onSession]) hsession hu.isOpen .pulling hsound
    simpa [Broker.Session.release, hheld, hready] using hserving
  · rw [log_move, log_report, log_observe, log_note]
    simp [Entry.log?, SessionCall.resolves]
    rfl

/-! ## Announcements -/

def Act.announces : Act H → Bool
  | .publish .. | .publishOver .. | .beside (.publish ..) | .beside (.operate (.inject ..)) => true
  | _ => false

structure Announced (s s' : Network H) : Prop where
  broker : s'.broker = s.broker ∨ ∃ exchange key typeTag body,
    s.broker.Appended s'.broker exchange key typeTag body
  buses : ∀ i : Nat, ∃ faults, s'.buses[i]? = s.buses[i]?.map (fun b => { b with faults }) ∧
    ∀ b, s.buses[i]? = some b → faults.Sublist b.faults
  log : ∀ i k, s'.log i k = s.log i k

theorem Announced.refl (s : Network H) : s.Announced s :=
  ⟨.inl rfl, (Called.refl s).buses, fun _ _ => rfl⟩

theorem publishOver_announced (hs : s.broker.Sound) (i : Nat) (e : Event) :
    s.Announced (publishOver i e s).2 := by
  unfold publishOver
  cases hb : s.buses[i]? with
  | none => exact .refl s
  | some bus =>
    have hcalled := publishEvent_called i bus.config.exchange e s
    have hbroker : ((calls i).publishEvent bus.config.exchange e s).2.broker = s.broker ∨
        ∃ exchange key typeTag body, s.broker.Appended
          ((calls i).publishEvent bus.config.exchange e s).2.broker exchange key typeTag body := by
      rcases onSession'_broker i (.publish bus.config.exchange (Message.ofEvent e).routingKey)
        (fun n b => b.publish n bus.config.exchange (.ofEvent e)) s with h | ⟨n, h⟩
      · exact .inl h
      · exact .inr ⟨_, _, _, _, hs.appended_publish h⟩
    have hlog (j k : Nat) :
        ((calls i).publishEvent bus.config.exchange e s).2.log j k = s.log j k := by
      refine hcalled.told fun i c refusal hc => ?_
      cases refusal <;> simp [Entry.log?, Entry.by?, hc]
    dsimp only
    split <;> rename_i heq <;> rw [heq] at hcalled hbroker hlog <;>
      exact ⟨by simpa using hbroker, by simpa using hcalled.buses, by simpa using hlog⟩

theorem announced_perform (hs : s.broker.Sound) {a : Act H} (ha : a.announces) :
    s.Announced (s.perform a) := by
  cases a with
  | publish i e => exact whileOpen_ind (.refl s) fun _ _ _ => publishOver_announced hs i e
  | publishOver i e => exact publishOver_announced hs i e
  | beside a =>
    cases a with
    | publish n exchange m =>
      refine ⟨?_, (Called.refl s).buses, fun _ _ => rfl⟩
      simp only [perform, Broker.act]
      cases hp : s.broker.publish n exchange m with
      | error e => exact .inl rfl
      | ok b' => exact .inr ⟨_, _, _, _, hs.appended_publish hp⟩
    | operate o =>
      cases o with
      | inject exchange key typeTag body =>
        exact ⟨.inr ⟨_, _, _, _, hs.appended_inject exchange key typeTag body⟩,
          (Called.refl s).buses, fun _ _ => rfl⟩
      | _ => simp [Act.announces] at ha
    | _ => simp [Act.announces] at ha
  | _ => simp [Act.announces] at ha

/-- What is announced goes behind what waits, and changes nothing else for a dispatcher. -/
theorem Serving.announced {p : Position H} (h : Serving registry queue i k s p tag held ready)
    {a : Act H} (ha : a.announces) :
    Serving registry queue i k (s.perform a) p tag held
      (ready ++ ((s.perform a).broker.ready queue).drop (s.broker.ready queue).length) ∧
    (s.perform a).log i k = s.log i k := by
  have hsound := h.sound_perform a
  obtain ⟨hs, bus, st, x, hu, rfl, rfl, rfl, rfl, rfl⟩ := h
  have hann := announced_perform hs.broker ha
  refine ⟨?_, hann.log i k⟩
  obtain ⟨hb, hk⟩ := dispatcher?_eq_some.mp hu.dispatcher
  obtain ⟨faults, hf, hsub⟩ := hann.buses i
  have hfaultless : faults = [] := List.sublist_nil.mp (hu.faultless ▸ hsub bus hb)
  have hd : (s.perform a).dispatcher? i k =
      some ({ bus with faults }, { stream := st, position := p }) := by
    rw [hb] at hf
    exact dispatcher?_eq_some.mpr ⟨hf, hk⟩
  rcases hann.broker with hbroker | ⟨exchange, key, typeTag, body, happ⟩
  · refine ⟨hsound, _, st, x, ⟨hd, hfaultless, hu.runs, ?_, hu.isOpen, ?_, ?_, ?_⟩, rfl, rfl,
      rfl, rfl, ?_⟩
    · exact hbroker ▸ hu.session
    · exact hbroker ▸ hu.current
    · exact hbroker ▸ hu.delivers
    · exact hbroker ▸ hu.declared
    · rw [hbroker, List.drop_length, List.append_nil]
  · have hdeclared (q : String) :
        (s.perform a).broker.queues.contains q = s.broker.queues.contains q := by
      have hq := congrArg Option.isSome (happ.declared q)
      simpa [Broker.queue?, Table.contains] using hq
    refine ⟨hsound, _, st, x, ⟨hd, hfaultless, hu.runs, ?_, hu.isOpen, ?_, ?_, ?_⟩, rfl, rfl,
      rfl, rfl, ?_⟩
    · exact happ.sessions ▸ hu.session
    · exact happ.epoch ▸ hu.current
    · exact happ.deliveryFaults.trans hu.delivers
    · exact (hdeclared _).trans hu.declared
    · rw [happ.ready, List.drop_left]

end Network
end CargoEvents
