import CargoEvents.Proofs.Broker.Sound

/-! # Changes that no call sees

How often consumers were cancelled, how many signals there were and how many deliveries a session
may have is nothing that a call looks at. So to change one of these and then to do something is to
do it first and to change them then, whatever is asked of the broker but polling.
-/
namespace CargoEvents.Broker

/-- A change of signals, cancellations and sessions that leaves of each session whether it is open
and what it holds. -/
structure Unseen (f : Broker → Broker) : Prop where
  apart : ∀ b c : Broker,
    f { c with epoch := b.epoch, signals := b.signals, sessions := b.sessions } =
      { c with epoch := (f b).epoch, signals := (f b).signals, sessions := (f b).sessions }
  signal : ∀ b : Broker, f b.signal = (f b).signal
  cancelConsumers : ∀ b : Broker, f b.cancelConsumers = (f b).cancelConsumers
  session : ∀ (b : Broker) (s : Nat), ((f b).sessions[s]?.map fun x => (x.isOpen, x.unacked)) =
    b.sessions[s]?.map fun x => (x.isOpen, x.unacked)
  onSession : ∀ (b : Broker) (s : Nat) (g : Session → Session),
    (∀ x p, g { x with prefetch := p } = { g x with prefetch := p }) →
      f (b.onSession s g) = (f b).onSession s g

/-- The change does not look at signals, cancellations and sessions, and leaves them. -/
def Aside (u : Broker → Broker) : Prop := ∀ (b : Broker) epoch signals sessions,
  u { b with epoch, signals, sessions } = { u b with epoch, signals, sessions }

theorem isOpen_congr {b b' : Broker} {s : Nat}
    (h : b'.sessions[s]?.map (·.isOpen) = b.sessions[s]?.map (·.isOpen)) :
    b'.isOpen s = b.isOpen s := by
  have hopen (c : Broker) : c.isOpen s = (c.sessions[s]?.map (·.isOpen)).getD false := by
    unfold isOpen
    cases c.sessions[s]? <;> rfl
  rw [hopen, hopen, h]

namespace Unseen
variable {f : Broker → Broker} {b b' : Broker} {s : Nat} {x : Session}

theorem comm (h : Unseen f) {u : Broker → Broker} (hu : Aside u) (b : Broker) :
    f (u b) = u (f b) := by
  have hsame : u b = { u b with epoch := b.epoch, signals := b.signals, sessions := b.sessions } :=
    hu b b.epoch b.signals b.sessions
  calc f (u b)
    _ = { u b with epoch := (f b).epoch, signals := (f b).signals, sessions := (f b).sessions } :=
      by rw [hsame, h.apart b (u b)]
    _ = u (f b) := by rw [← hu, ← h.apart b b]

theorem comm_signal (h : Unseen f) {u : Broker → Broker} (hu : Aside u) (b : Broker) :
    f (u b).signal = (u (f b)).signal := by
  rw [h.signal, h.comm hu]

section Fields
variable (h : Unseen f) (b : Broker)
include h

theorem eq_with : f b =
    { b with epoch := (f b).epoch, signals := (f b).signals, sessions := (f b).sessions } :=
  h.apart b b

theorem exchanges : (f b).exchanges = b.exchanges := by rw [h.eq_with]

theorem queues : (f b).queues = b.queues := by rw [h.eq_with]

theorem declarationFault : (f b).declarationFault = b.declarationFault := by rw [h.eq_with]

theorem publishFault : (f b).publishFault = b.publishFault := by rw [h.eq_with]

theorem isOpen (s : Nat) : (f b).isOpen s = b.isOpen s := by
  refine isOpen_congr ?_
  simpa [Function.comp_def] using congrArg (Option.map (·.1)) (h.session b s)

end Fields

theorem session_none (h : Unseen f) (hs : b.sessions[s]? = none) : (f b).sessions[s]? = none := by
  have hsame := h.session b s
  rwa [hs, Option.map_none, Option.map_eq_none_iff] at hsame

theorem session_some (h : Unseen f) (hs : b.sessions[s]? = some x) :
    ∃ y, (f b).sessions[s]? = some y ∧ y.isOpen = x.isOpen ∧ y.unacked = x.unacked := by
  have hsame := h.session b s
  rw [hs, Option.map_some, Option.map_eq_some_iff] at hsame
  obtain ⟨y, hy, heq⟩ := hsame
  exact ⟨y, hy, congrArg Prod.fst heq, congrArg Prod.snd heq⟩

/-! ## Calls -/

theorem declaring (h : Unseen f) (entity : String) (reason? : Option String)
    {u : Broker → Broker} (hu : Aside u) :
    (f b).declaring entity reason? (u (f b)) = (b.declaring entity reason? (u b)).map f := by
  unfold Broker.declaring
  rw [h.declarationFault, ← h.comm hu]
  cases b.declarationFault <;> cases reason? <;> rfl

theorem declareExchange (h : Unseen f) (s : Nat) (x : ExchangeDeclaration) :
    (f b).declareExchange s x = (b.declareExchange s x).map f := by
  rw [Broker.declareExchange, Broker.declareExchange, h.isOpen]
  split
  · have hu : Aside fun b => { b with exchanges := b.exchanges.insert x.name x } :=
      fun _ _ _ _ => rfl
    refine Eq.trans ?_ (h.declaring _ _ hu)
    rw [h.exchanges]
  · rfl

theorem declareQueue (h : Unseen f) (s : Nat) (q : QueueDeclaration) :
    (f b).declareQueue s q = (b.declareQueue s q).map f := by
  have hqueue : (f b).queue? q.name = b.queue? q.name := by rw [queue?, h.queues, queue?]
  rw [Broker.declareQueue, Broker.declareQueue, h.isOpen, hqueue]
  split
  · have hu : Aside fun b => if b.queues.contains q.name then b
        else { b with queues := b.queues.insert q.name { declaration := q } } := by
      intro b epoch signals sessions
      dsimp only
      split <;> rfl
    exact h.declaring _ _ hu
  · rfl

theorem bindQueue (h : Unseen f) (s : Nat) (queue exchange key : String) :
    (f b).bindQueue s queue exchange key = (b.bindQueue s queue exchange key).map f := by
  rw [Broker.bindQueue, Broker.bindQueue, h.isOpen]
  split
  · have hu : Aside fun b => { b with bindings := b.bindings.insert { exchange, key, queue } } :=
      fun _ _ _ _ => rfl
    refine Eq.trans ?_ (h.declaring _ _ hu)
    rw [h.exchanges, h.queues]
  · rfl

theorem publish (h : Unseen f) (s : Nat) (exchange : String) (m : Message) :
    (f b).publish s exchange m = (b.publish s exchange m).map f := by
  rw [Broker.publish, Broker.publish, h.isOpen, h.publishFault, h.exchanges]
  split
  · rfl
  · cases b.publishFault with
    | some reason => rfl
    | none =>
      dsimp only
      split
      · have hu : Aside fun b =>
            let routed := b.route exchange m.routingKey (tagOf m) m.body
            { routed with published := routed.published ++ [m] } := fun _ _ _ _ => rfl
        exact congrArg Except.ok (h.comm_signal hu b).symm
      · rfl

theorem giveBack (h : Unseen f) (b : Broker) (held : Held) :
    f (b.giveBack held) = (f b).giveBack held :=
  h.comm (u := (·.giveBack held)) (fun _ _ _ _ => rfl) b

theorem giveBackAll (h : Unseen f) (helds : List Held) :
    f (b.giveBackAll helds) = (f b).giveBackAll helds := by
  induction helds with
  | nil => rfl
  | cons held helds ih => rw [giveBackAll_cons, h.giveBack, ih, giveBackAll_cons]

theorem resolve (h : Unseen f) (s tag : Nat) (how : Resolution) :
    (f b).resolve s tag how = (b.resolve s tag how).map f := by
  rw [Broker.resolve, Broker.resolve]
  cases hs : b.sessions[s]? with
  | none =>
    rw [h.session_none hs]
    rfl
  | some x =>
    obtain ⟨y, hy, hopen, hunacked⟩ := h.session_some hs
    rw [hy]
    dsimp only
    rw [hopen, hunacked]
    split
    · rfl
    · cases x.unacked.find? (·.tag == tag) with
      | none => rfl
      | some held =>
        have hrelease := h.onSession b s (·.release tag) fun _ _ => rfl
        refine congrArg Except.ok ?_
        rw [h.signal]
        refine congrArg Broker.signal ?_
        split
        · exact (((h.giveBack _ held).trans (congrArg (·.giveBack held) hrelease))).symm
        · exact hrelease.symm

theorem closeSession (h : Unseen f) (s : Nat) :
    (f b).closeSession s = f (b.closeSession s) := by
  rw [Broker.closeSession, Broker.closeSession]
  cases hs : b.sessions[s]? with
  | none => rw [h.session_none hs]
  | some x =>
    obtain ⟨y, hy, hopen, hunacked⟩ := h.session_some hs
    rw [hy]
    dsimp only
    rw [hopen, hunacked]
    split
    · have hshut := h.onSession b s Session.shut fun _ _ => rfl
      rw [h.signal]
      refine congrArg Broker.signal ?_
      exact ((h.giveBackAll x.unacked).trans (congrArg (·.giveBackAll x.unacked) hshut)).symm
    · rfl

theorem operate (h : Unseen f) (o : Operation) : (f b).operate o = f (b.operate o) := by
  cases o with
  | inject exchange key typeTag body =>
    have hu : Aside (·.route exchange key typeTag body) := fun _ _ _ _ => rfl
    exact (h.comm_signal hu b).symm
  | deleteQueue name =>
    have hu : Aside fun b => { b with
        queues := b.queues.erase name, bindings := b.bindings.filter (·.queue != name) } :=
      fun _ _ _ _ => rfl
    exact (h.comm_signal hu b).symm
  | cancelConsumers => exact (h.cancelConsumers b).symm
  | failDeclarations reason =>
    have hu : Aside (·.failDeclarations reason) := fun _ _ _ _ => rfl
    exact (h.comm hu b).symm
  | failPublishes reason =>
    have hu : Aside (·.failPublishes reason) := fun _ _ _ _ => rfl
    exact (h.comm hu b).symm
  | failNextDelivery reason =>
    have hu : Aside fun b => { b with deliveryFaults := b.deliveryFaults ++ [reason] } :=
      fun _ _ _ _ => rfl
    exact (h.comm_signal hu b).symm

theorem after {r r' : Except BrokerError Broker} (h : r' = r.map f) :
    (f b).after r' = f (b.after r) := by
  subst h
  cases r <;> rfl

/-- All that is asked of the broker but polling, and but new sessions and limits. -/
theorem act (h : Unseen f) {a : Action} (ha : ∀ st, a ≠ .poll st) (hnew : a ≠ .openSession)
    (hset : ∀ s qos, a ≠ .setQos s qos) : (f b).act a = f (b.act a) := by
  cases a with
  | poll st => exact (ha st rfl).elim
  | openSession => exact (hnew rfl).elim
  | setQos s qos => exact (hset s qos rfl).elim
  | declareExchange s x => exact after (h.declareExchange s x)
  | declareQueue s q => exact after (h.declareQueue s q)
  | bindQueue s queue exchange key => exact after (h.bindQueue ..)
  | publish s exchange m => exact after (h.publish s exchange m)
  | consume s queue => rw [act_consume, act_consume]
  | resolve s tag how => exact after (h.resolve s tag how)
  | closeSession s => exact h.closeSession s
  | operate o => exact h.operate o

end Unseen
end CargoEvents.Broker
