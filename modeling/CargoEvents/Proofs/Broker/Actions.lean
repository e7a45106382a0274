import CargoEvents.Broker.Consuming
import Mathlib.Data.List.Perm.Basic

/-! # Runs of the broker

Whatever a session or an operator asks of the broker is an action, and a run is any
sequence of actions. `act_effect` says once what an action can do, with what must hold
for it; the laws of the broker are read off from it.
-/
namespace CargoEvents.Broker
open Wire (Bytes)

/-- What is asked past all sessions. -/
inductive Operation
  | inject (exchange key : String) (typeTag : Option String) (body : Bytes)
  | deleteQueue (name : String)
  | cancelConsumers
  | failDeclarations (reason : Option String)
  | failPublishes (reason : Option String)
  | failNextDelivery (reason : String)
  deriving DecidableEq, Repr

inductive Action
  | openSession
  | declareExchange (s : Nat) (x : ExchangeDeclaration)
  | declareQueue (s : Nat) (q : QueueDeclaration)
  | setQos (s : Nat) (qos : Qos)
  | bindQueue (s : Nat) (queue exchange key : String)
  | publish (s : Nat) (exchange : String) (m : Message)
  | consume (s : Nat) (queue : String)
  | poll (st : Stream)
  | resolve (s tag : Nat) (how : Resolution)
  | closeSession (s : Nat)
  | operate (o : Operation)
  deriving DecidableEq, Repr

/-- Whether a session asks for the action and neither looks for deliveries nor resolves one. -/
def Action.isCall : Action → Bool
  | .poll _ | .resolve .. | .operate _ => false
  | _ => true

def operate (b : Broker) : Operation → Broker
  | .inject exchange key typeTag body => (b.inject exchange key typeTag body).2
  | .deleteQueue name => b.deleteQueue name
  | .cancelConsumers => b.cancelConsumers
  | .failDeclarations reason => b.failDeclarations reason
  | .failPublishes reason => b.failPublishes reason
  | .failNextDelivery reason => b.failNextDelivery reason

def after (b : Broker) : Except BrokerError Broker → Broker
  | .ok b' => b'
  | .error _ => b

/-- Consuming opens a stream, which is with the consumer; polling any stream is an action. -/
def act (b : Broker) : Action → Broker
  | .openSession => b.openSession
  | .declareExchange s x => b.after (b.declareExchange s x)
  | .declareQueue s q => b.after (b.declareQueue s q)
  | .setQos s qos => b.after (b.setQos s qos)
  | .bindQueue s queue exchange key => b.after (b.bindQueue s queue exchange key)
  | .publish s exchange m => b.after (b.publish s exchange m)
  | .consume s queue => b.after ((b.consume s queue).map fun _ => b)
  | .poll st => (b.poll st).2.2
  | .resolve s tag how => b.after (b.resolve s tag how)
  | .closeSession s => b.closeSession s
  | .operate o => b.operate o

def run (b : Broker) (actions : List Action) : Broker := actions.foldl act b

@[simp] theorem run_nil (b : Broker) : b.run [] = b := rfl

@[simp] theorem run_cons (b : Broker) (a : Action) (actions : List Action) :
    b.run (a :: actions) = (b.act a).run actions := rfl

theorem run_append (b : Broker) (xs ys : List Action) : b.run (xs ++ ys) = (b.run xs).run ys :=
  List.foldl_append ..

def tagOf (m : Message) : Option String := if m.typeTag = "" then none else some m.typeTag

def Session.release (x : Session) (tag : Nat) : Session :=
  { x with unacked := x.unacked.filter (·.tag != tag) }

def Session.shut (x : Session) : Session := { x with isOpen := false, unacked := [] }

/-- Gives back all that a session held. The first of it ends up foremost. -/
def giveBackAll (b : Broker) (helds : List Held) : Broker :=
  helds.foldr (fun held b => b.giveBack held) b

inductive Effect (b : Broker) : Action → Broker → Prop
  | refused (a : Action) : Effect b a b
  | opened : Effect b .openSession b.openSession
  | exchangeDeclared {s : Nat} {x : ExchangeDeclaration} (hs : b.isOpen s)
      (hx : (b.exchanges.get? x.name).all (· == x)) :
      Effect b (.declareExchange s x) { b with exchanges := b.exchanges.insert x.name x }
  | queueDeclared {s : Nat} {q : QueueDeclaration} (hs : b.isOpen s)
      (hq : b.queues.get? q.name = none) :
      Effect b (.declareQueue s q)
        { b with queues := b.queues.insert q.name { declaration := q } }
  | qosSet {s : Nat} {qos : Qos} (hs : b.isOpen s) :
      Effect b (.setQos s qos)
        (b.onSession s fun x => { x with prefetch := qos.prefetchCount.toNat })
  | bound {s : Nat} {queue exchange key : String} (hs : b.isOpen s)
      (hx : b.exchanges.contains exchange) (hq : b.queues.contains queue) :
      Effect b (.bindQueue s queue exchange key)
        { b with bindings := b.bindings.insert { exchange, key, queue } }
  | published {s : Nat} {exchange : String} {m : Message} (hs : b.isOpen s)
      (hx : b.exchanges.contains exchange) (hf : b.publishFault = none) :
      Effect b (.publish s exchange m)
        (signal { b.route exchange m.routingKey (tagOf m) m.body with
          published := b.published ++ [m] })
  | faulted {st : Stream} {reason : String} {later : List String}
      (hf : b.deliveryFaults = reason :: later) :
      Effect b (.poll st) { b with deliveryFaults := later }
  | handedOut {st : Stream} {x : Session} {copy : Copy} {rest : List Copy}
      (hs : b.sessions[st.session]? = some x) (ho : x.isOpen) (hx : ¬x.isFull)
      (hr : b.ready st.queue = copy :: rest) (he : b.epoch = st.epoch)
      (hf : b.deliveryFaults = []) :
      Effect b (.poll st) (b.handOut st.session st.queue (x.lastTag + 1) copy)
  | settled {s tag : Nat} {how : Resolution} {x : Session} {held : Held}
      (hs : b.sessions[s]? = some x) (ho : x.isOpen)
      (hh : x.unacked.find? (·.tag == tag) = some held) (hn : how ≠ .nack true) :
      Effect b (.resolve s tag how) (signal (b.onSession s (·.release tag)))
  | returned {s tag : Nat} {x : Session} {held : Held}
      (hs : b.sessions[s]? = some x) (ho : x.isOpen)
      (hh : x.unacked.find? (·.tag == tag) = some held) :
      Effect b (.resolve s tag (.nack true))
        (signal ((b.onSession s (·.release tag)).giveBack held))
  | shut {s : Nat} {x : Session} (hs : b.sessions[s]? = some x) (ho : x.isOpen) :
      Effect b (.closeSession s)
        (signal ((b.onSession s Session.shut).giveBackAll x.unacked))
  | operated (o : Operation) : Effect b (.operate o) (b.operate o)

theorem isOpen_iff {b : Broker} {s : Nat} :
    b.isOpen s ↔ ∃ x, b.sessions[s]? = some x ∧ x.isOpen := by
  simp [isOpen, Option.any_eq_true]

theorem declaring_eq_ok {b declared b' : Broker} {entity : String} {reason? : Option String}
    (h : b.declaring entity reason? declared = .ok b') : reason? = none ∧ b' = declared := by
  unfold declaring at h
  split at h <;> cases h
  exact ⟨rfl, rfl⟩

theorem declareExchange_effect (b : Broker) (s : Nat) (x : ExchangeDeclaration) :
    Effect b (.declareExchange s x) (b.act (.declareExchange s x)) := by
  simp only [act]
  cases h : b.declareExchange s x with
  | error e => exact .refused _
  | ok b' =>
    unfold declareExchange at h
    split at h
    · rename_i hs
      obtain ⟨hr, rfl⟩ := declaring_eq_ok h
      refine .exchangeDeclared hs ?_
      by_contra hx
      simp [hx] at hr
    · cases h

theorem declareQueue_effect (b : Broker) (s : Nat) (q : QueueDeclaration) :
    Effect b (.declareQueue s q) (b.act (.declareQueue s q)) := by
  simp only [act]
  cases h : b.declareQueue s q with
  | error e => exact .refused _
  | ok b' =>
    unfold declareQueue at h
    split at h
    · rename_i hs
      obtain ⟨-, rfl⟩ := declaring_eq_ok h
      simp only [after]
      split
      · exact .refused _
      · rename_i hq
        exact .queueDeclared hs (by simpa [Table.contains] using hq)
    · cases h

theorem setQos_effect (b : Broker) (s : Nat) (qos : Qos) :
    Effect b (.setQos s qos) (b.act (.setQos s qos)) := by
  simp only [act, setQos]
  cases b.declarationFault with
  | some reason => exact .refused _
  | none =>
    by_cases hs : b.isOpen s
    · simpa only [hs, if_true, after] using .qosSet hs
    · simpa only [hs, if_false, after] using .refused _

theorem bindQueue_effect (b : Broker) (s : Nat) (queue exchange key : String) :
    Effect b (.bindQueue s queue exchange key) (b.act (.bindQueue s queue exchange key)) := by
  simp only [act]
  cases h : b.bindQueue s queue exchange key with
  | error e => exact .refused _
  | ok b' =>
    unfold bindQueue at h
    split at h
    · rename_i hs
      obtain ⟨hr, rfl⟩ := declaring_eq_ok h
      by_cases hx : b.exchanges.contains exchange
      · by_cases hq : b.queues.contains queue
        · exact .bound hs hx hq
        · simp [hx, hq] at hr
      · simp [hx] at hr
    · cases h

theorem publish_eq_ok {b b' : Broker} {s : Nat} {exchange : String} {m : Message}
    (h : b.publish s exchange m = .ok b') :
    b.isOpen s ∧ b.exchanges.contains exchange ∧ b.publishFault = none ∧
      b' = signal { b.route exchange m.routingKey (tagOf m) m.body with
        published := b.published ++ [m] } := by
  unfold publish at h
  split at h
  · cases h
  · rename_i hs
    split at h
    · cases h
    · rename_i hf
      split at h
      · rename_i hx
        cases h
        exact ⟨by simpa using hs, hx, hf, rfl⟩
      · cases h

theorem publish_effect (b : Broker) (s : Nat) (exchange : String) (m : Message) :
    Effect b (.publish s exchange m) (b.act (.publish s exchange m)) := by
  simp only [act]
  cases h : b.publish s exchange m with
  | error e => exact .refused _
  | ok b' =>
    obtain ⟨hs, hx, hf, rfl⟩ := publish_eq_ok h
    exact .published hs hx hf

theorem poll_snd (b : Broker) (st : Stream) :
    (b.poll st).2.2 = b ∨ (b.poll st).2.2 = (b.look st).2 := by
  unfold poll
  split
  · exact .inl rfl
  · right
    split <;> rename_i h <;> simp [h]

theorem poll_effect (b : Broker) (st : Stream) : Effect b (.poll st) (b.act (.poll st)) := by
  simp only [act]
  rcases b.poll_snd st with h | h
  · rw [h]
    exact .refused _
  · rw [h]
    unfold look
    split
    · exact .refused _
    · rename_i x hs
      split
      · exact .refused _
      · rename_i ho
        obtain ⟨he, ho⟩ : b.epoch = st.epoch ∧ x.isOpen = true := by
          simpa [not_or] using ho
        split
        · rename_i hf
          exact .faulted hf
        · rename_i hf hr
          split
          · exact .refused _
          · rename_i hx
            exact .handedOut hs ho hx hr he hf
        · exact .refused _

theorem resolve_eq_ok {b b' : Broker} {s tag : Nat} {how : Resolution}
    (h : b.resolve s tag how = .ok b') :
    ∃ x held, b.sessions[s]? = some x ∧ x.isOpen ∧
      x.unacked.find? (·.tag == tag) = some held ∧
      b' = signal (if how = .nack true then (b.onSession s (·.release tag)).giveBack held
        else b.onSession s (·.release tag)) := by
  unfold resolve at h
  split at h
  · cases h
  · rename_i x hs
    split at h
    · cases h
    · rename_i ho
      split at h
      · cases h
      · rename_i held hh
        cases h
        exact ⟨x, held, hs, by simpa using ho, hh, rfl⟩

theorem resolve_effect (b : Broker) (s tag : Nat) (how : Resolution) :
    Effect b (.resolve s tag how) (b.act (.resolve s tag how)) := by
  simp only [act]
  cases h : b.resolve s tag how with
  | error e => exact .refused _
  | ok b' =>
    obtain ⟨x, held, hs, ho, hh, rfl⟩ := resolve_eq_ok h
    simp only [after]
    split
    · rename_i hn
      subst hn
      exact .returned hs ho hh
    · rename_i hn
      exact .settled hs ho hh hn

theorem closeSession_effect (b : Broker) (s : Nat) :
    Effect b (.closeSession s) (b.act (.closeSession s)) := by
  simp only [act, closeSession]
  split
  · exact .refused _
  · rename_i x hs
    split
    · rename_i ho
      exact .shut hs ho
    · exact .refused _

theorem act_consume (b : Broker) (s : Nat) (queue : String) : b.act (.consume s queue) = b := by
  simp only [act]
  cases b.consume s queue <;> rfl

/-- All that an action can do. -/
theorem act_effect (b : Broker) (a : Action) : Effect b a (b.act a) := by
  cases a with
  | openSession => exact .opened
  | declareExchange s x => exact b.declareExchange_effect s x
  | declareQueue s q => exact b.declareQueue_effect s q
  | setQos s qos => exact b.setQos_effect s qos
  | bindQueue s queue exchange key => exact b.bindQueue_effect s queue exchange key
  | publish s exchange m => exact b.publish_effect s exchange m
  | consume s queue =>
    rw [act_consume]
    exact .refused _
  | poll st => exact b.poll_effect st
  | resolve s tag how => exact b.resolve_effect s tag how
  | closeSession s => exact b.closeSession_effect s
  | operate o => exact .operated o

end CargoEvents.Broker
