import CargoEvents.Proofs.Broker.Holding
import CargoEvents.Proofs.Broker.Standing
import CargoEvents.Proofs.Calls
import CargoEvents.Session

/-! # Calls, step by step

A call on the broker looks at it, checks and changes one thing after the other, and what was changed
before a check failed stays changed (`Action.attempt`). Yet each call does and answers the same as
one that is accepted or refused as a whole (`attempt_eq`): what a failed check leaves behind is
nothing, or a delivery fault that was taken.
-/
namespace CargoEvents.Broker
open Call

def require (check : Broker → Bool) (e : BrokerError) : Call BrokerError Broker Unit := do
  unless check (← get) do throw e

def allowing (fault : Broker → Option String) (e : String → BrokerError) :
    Call BrokerError Broker Unit := do
  if let some reason := fault (← get) then throw (e reason)

/-- What the action does step by step, and whether it fails. -/
def Action.attempt : Action → Call BrokerError Broker Unit
  | .openSession => modify Broker.openSession
  | .declareExchange s x => do
    let entity := s!"exchange '{x.name}'"
    require (·.isOpen s) .sessionClosed
    allowing (·.declarationFault) (.declarationFailed entity)
    match (← get).exchanges.get? x.name with
    | some declared => require (fun _ => declared == x) (.declarationFailed entity inequivalent)
    | none => modify fun b => { b with exchanges := b.exchanges.insert x.name x }
  | .declareQueue s q => do
    let entity := s!"queue '{q.name}'"
    require (·.isOpen s) .sessionClosed
    allowing (·.declarationFault) (.declarationFailed entity)
    match (← get).queue? q.name with
    | some declared => require (fun _ => declared == q) (.declarationFailed entity inequivalent)
    | none => modify fun b => { b with queues := b.queues.insert q.name { declaration := q } }
  | .setQos s qos => do
    allowing (·.declarationFault) (.declarationFailed "qos")
    require (·.isOpen s) .sessionClosed
    modify (·.setLimit s qos.prefetchCount.toNat)
  | .bindQueue s queue exchange key => do
    let entity := s!"binding '{queue}' -> '{exchange}' ({key})"
    require (·.isOpen s) .sessionClosed
    allowing (·.declarationFault) (.declarationFailed entity)
    require (·.exchanges.contains exchange) (.declarationFailed entity (noExchange exchange))
    require (·.queues.contains queue) (.declarationFailed entity (noQueue queue))
    modify fun b => { b with bindings := b.bindings.insert { exchange, key, queue } }
  | .publish s exchange m => do
    require (·.isOpen s) .sessionClosed
    allowing (·.publishFault) .publishFailed
    require (·.exchanges.contains exchange) (.publishFailed (noExchange exchange))
    modify (·.route exchange m.routingKey (tagOf m) m.body)
    modify fun b => { b with published := b.published ++ [m] }
    modify signal
  | .consume s queue => do
    require (·.isOpen s) .sessionClosed
    require (·.queues.contains queue) (.consumeFailed (noQueue queue))
  | .poll st => do
    let (polled, _, b) := (← get).poll st
    set b
    if let .fault e := polled then throw e
  | .resolve s tag how => do
    require (·.isOpen s) .sessionClosed
    let found := ((← get).heldBy s).find? (·.tag == tag)
    modify (·.onSession s (·.release tag))
    match found with
    | none => throw (.acknowledgementFailed tag unknownTag)
    | some held =>
      if how = .nack true then modify (·.giveBack held)
      modify signal
  | .closeSession s => modify (·.closeSession s)
  | .operate o => modify (·.operate o)

/-- What the action answers. A stream that yields a fault answers with it. -/
def answer (b : Broker) : Action → Except BrokerError Unit
  | .declareExchange s x => (b.declareExchange s x).map fun _ => ()
  | .declareQueue s q => (b.declareQueue s q).map fun _ => ()
  | .setQos s qos => (b.setQos s qos).map fun _ => ()
  | .bindQueue s queue exchange key => (b.bindQueue s queue exchange key).map fun _ => ()
  | .publish s exchange m => (b.publish s exchange m).map fun _ => ()
  | .consume s queue => (b.consume s queue).map fun _ => ()
  | .resolve s tag how => (b.resolve s tag how).map fun _ => ()
  | .poll st => match (b.poll st).1 with
    | .fault e => .error e
    | _ => .ok ()
  | .openSession | .closeSession _ | .operate _ => .ok ()

variable {b : Broker} {s : Nat}

/-! ## Checks -/

theorem require_apply (check : Broker → Bool) (e : BrokerError) (b : Broker) :
    require check e b = if check b then (.ok (), b) else (.error e, b) := by
  simp only [require, bind_apply, get_apply]
  cases check b <;> rfl

theorem allowing_apply (fault : Broker → Option String) (e : String → BrokerError) (b : Broker) :
    allowing fault e b = match fault b with
      | some reason => (.error (e reason), b)
      | none => (.ok (), b) := by
  simp only [allowing, bind_apply, get_apply]
  cases fault b <;> rfl

theorem call_apply (op : Broker → Except BrokerError Broker) (b : Broker) :
    call op b = ((op b).map fun _ => (), b.after (op b)) := by
  simp only [call, Call.ofExcept]
  cases op b <;> rfl

/-! ## Calls -/

theorem attempt_declareExchange (b : Broker) (s : Nat) (x : ExchangeDeclaration) :
    (Action.declareExchange s x).attempt b = (calls s).declareExchange x b := by
  simp only [Action.attempt, calls, call_apply, bind_apply, require_apply, allowing_apply,
    get_apply, declareExchange, declaring]
  by_cases hs : b.isOpen s
  · rcases Option.eq_none_or_eq_some b.declarationFault with hf | ⟨reason, hf⟩
    · rcases Option.eq_none_or_eq_some (b.exchanges.get? x.name) with hx | ⟨y, hx⟩
      · simp [hs, hf, hx, modify_apply, after, Except.map]
      · by_cases hy : y = x
        · subst hy
          simp only [hs, hf, hx, require_apply, exchanges_insert hx, Option.all_some,
            beq_self_eq_true, if_true]
          rw [after, Except.map, ← hf]
        · simp [hs, hf, hx, hy, require_apply, after, Except.map]
    · simp [hs, hf, after, Except.map]
  · simp [hs, after, Except.map]

theorem attempt_declareQueue (b : Broker) (s : Nat) (q : QueueDeclaration) :
    (Action.declareQueue s q).attempt b = (calls s).declareQueue q b := by
  simp only [Action.attempt, calls, call_apply, bind_apply, require_apply, allowing_apply,
    get_apply, declareQueue, declaring, queue?, Table.contains]
  by_cases hs : b.isOpen s
  · rcases Option.eq_none_or_eq_some b.declarationFault with hf | ⟨reason, hf⟩
    · rcases Option.eq_none_or_eq_some (b.queues.get? q.name) with hq | ⟨old, hq⟩
      · simp [hs, hf, hq, modify_apply, after, Except.map]
      · by_cases hd : old.declaration = q
        · simp [hs, hf, hq, hd, require_apply, after, Except.map]
        · simp [hs, hf, hq, hd, require_apply, after, Except.map]
    · simp [hs, hf, after, Except.map]
  · simp [hs, after, Except.map]

theorem attempt_setQos (b : Broker) (s : Nat) (qos : Qos) :
    (Action.setQos s qos).attempt b = (calls s).setQos qos b := by
  simp only [Action.attempt, calls, call_apply, bind_apply, require_apply, allowing_apply,
    Broker.setQos]
  rcases Option.eq_none_or_eq_some b.declarationFault with hf | ⟨reason, hf⟩
  · by_cases hs : b.isOpen s
    · simp [hs, hf, modify_apply, after, Except.map, setLimit]
    · simp [hs, hf, after, Except.map]
  · simp [hf, after, Except.map]

theorem attempt_bindQueue (b : Broker) (s : Nat) (queue exchange key : String) :
    (Action.bindQueue s queue exchange key).attempt b =
      (calls s).bindQueue queue exchange key b := by
  simp only [Action.attempt, calls, call_apply, bind_apply, require_apply, allowing_apply,
    Broker.bindQueue, declaring]
  by_cases hs : b.isOpen s
  · rcases Option.eq_none_or_eq_some b.declarationFault with hf | ⟨reason, hf⟩
    · by_cases hx : b.exchanges.contains exchange
      · by_cases hq : b.queues.contains queue
        · simp [hs, hf, hx, hq, modify_apply, after, Except.map]
        · simp [hs, hf, hx, hq, after, Except.map]
      · simp [hs, hf, hx, after, Except.map]
    · simp [hs, hf, after, Except.map]
  · simp [hs, after, Except.map]

theorem attempt_publish (b : Broker) (s : Nat) (exchange : String) (m : Message) :
    (Action.publish s exchange m).attempt b = (calls s).publish exchange m b := by
  simp only [Action.attempt, calls, call_apply, bind_apply, require_apply, allowing_apply,
    Broker.publish]
  by_cases hs : b.isOpen s
  · rcases Option.eq_none_or_eq_some b.publishFault with hf | ⟨reason, hf⟩
    · by_cases hx : b.exchanges.contains exchange
      · simp only [hs, hf, hx, if_true, modify_apply]
        rfl
      · simp [hs, hf, hx, after, Except.map]
    · simp [hs, hf, after, Except.map]
  · simp [hs, after, Except.map]

theorem attempt_consume (b : Broker) (s : Nat) (queue : String) :
    (Action.consume s queue).attempt b = call (fun b => (b.consume s queue).map fun _ => b) b := by
  simp only [Action.attempt, call_apply, bind_apply, require_apply, Broker.consume]
  by_cases hs : b.isOpen s
  · by_cases hq : b.queues.contains queue
    · simp [hs, hq, after, Except.map]
    · simp [hs, hq, after, Except.map]
  · simp [hs, after, Except.map]

theorem attempt_resolve (b : Broker) (s tag : Nat) (how : Resolution) :
    (Action.resolve s tag how).attempt b = call (·.resolve s tag how) b := by
  simp only [Action.attempt, call_apply, bind_apply, require_apply, get_apply, modify_apply,
    Broker.resolve, isOpen]
  cases hs : b.sessions[s]? with
  | none => rfl
  | some x =>
    by_cases ho : x.isOpen
    · cases hfind : x.unacked.find? (·.tag == tag) with
      | none =>
        -- What is not there is taken out before it is missed.
        have hsame : b.onSession s (·.release tag) = b :=
          onSession_self hs (by rw [Session.release, filter_unheld hfind])
        simp [ho, heldBy_eq hs, hfind, hsame, throw_apply, after, Except.map]
      | some held =>
        by_cases hn : how = .nack true
        · simp [ho, heldBy_eq hs, hfind, hn, bind_apply, modify_apply, after, Except.map,
            Session.release]
        · simp [ho, heldBy_eq hs, hfind, hn, modify_apply, after, Except.map, Session.release]
    · simp [ho, after, Except.map]

theorem attempt_poll (b : Broker) (st : Stream) :
    (Action.poll st).attempt b = (b.answer (.poll st), b.act (.poll st)) := by
  simp only [Action.attempt, bind_apply, get_apply, answer, Broker.act]
  generalize b.poll st = polled
  obtain ⟨polled, st', b'⟩ := polled
  cases polled <;> rfl

/-- Step by step an action answers and does the same. -/
theorem attempt_eq (b : Broker) (a : Action) : a.attempt b = (b.answer a, b.act a) := by
  cases a with
  | openSession | closeSession | operate => rfl
  | declareExchange s x =>
    exact (b.attempt_declareExchange s x).trans (call_apply (·.declareExchange s x) b)
  | declareQueue s q => exact (b.attempt_declareQueue s q).trans (call_apply (·.declareQueue s q) b)
  | setQos s qos => exact (b.attempt_setQos s qos).trans (call_apply (·.setQos s qos) b)
  | bindQueue s queue exchange key =>
    exact (b.attempt_bindQueue s queue exchange key).trans
      (call_apply (·.bindQueue s queue exchange key) b)
  | publish s exchange m =>
    exact (b.attempt_publish s exchange m).trans (call_apply (·.publish s exchange m) b)
  | consume s queue =>
    rw [attempt_consume, call_apply, answer, Broker.act]
    cases b.consume s queue <;> rfl
  | poll st => exact b.attempt_poll st
  | resolve s tag how =>
    exact (b.attempt_resolve s tag how).trans (call_apply (·.resolve s tag how) b)

end CargoEvents.Broker
